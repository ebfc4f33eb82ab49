/-
This file says which calls of a syntax tree the functions of the tree hold. The
call sites of all functions correspond one to one to the calls by name that stand
inside some definition. A call site is held by the function that bears the name of
the innermost definition around the call, the sites of a function stand in the
order of the text, and what is around the call below that definition gives its
circumstances. Calls are told by their addresses: the innermost definition and the
circumstances are read off the nodes around an address, without following the walk
that collects the calls, and the name of a call is read off its function part as a
chain of names with dots between. The walk is shown to give at each address the
call that stands there, under this owner. So the sites of a function are those at
the addresses of its calls, which is a bijection because addresses are listed
once.
-/

import Mathlib.Data.List.Forall2
import Mathlib.Data.List.Lex
import Mathlib.Data.List.Nodup
import Mathlib.Data.List.Sort
import Mathlib.Logic.Equiv.Basic
import MigrationGuard.Proofs.Source.Addresses

namespace MigrationGuard.Python.Tree

/-! ### The name of a function part -/

/-- The tree is a chain of names, each but the first an attribute of what stands before it. -/
inductive Spells : Tree → List String → Prop where
  /-- A single name. -/
  | name (text : String) : Spells (.identifier text) [text]
  /-- An attribute of a chain of names. -/
  | field {object : Tree} {names : List String} (field : String) (spells : Spells object names) :
    Spells (.attribute object field) (names ++ [field])

/-- The tree is called under a name: under the names of the chain with dots between them, or under
the last attribute of an object that is no chain of names. -/
inductive CalledAs : Tree → String → Prop where
  /-- The function part is a chain of names. -/
  | chain {function : Tree} {names : List String} (spells : function.Spells names) :
    CalledAs function (Text.joined "." names)
  /-- The function part is an attribute of a computed object. -/
  | computed {object : Tree} (field : String) (other : ∀ names, ¬object.Spells names) :
    CalledAs (.attribute object field) field

/-- The tree is an identifier or an attribute, so a call of it has a name. -/
def IsName : Tree → Prop
  | .identifier _ => True
  | .attribute _ _ => True
  | _ => False

theorem joined_append_singleton {names : List String} (present : names ≠ []) (field : String) :
    Text.joined "." (names ++ [field]) = Text.joined "." names ++ "." ++ field := by
  unfold Text.joined
  induction names with
  | nil => exact absurd rfl present
  | cons first rest inductionHypothesis =>
    cases rest with
    | nil => rfl
    | cons second rest =>
      have later := inductionHypothesis (List.cons_ne_nil _ _)
      rw [List.cons_append, List.cons_append, String.intercalate_cons_cons, ← List.cons_append,
        later, String.intercalate_cons_cons, String.append_assoc, String.append_assoc,
        String.append_assoc, String.append_assoc, String.append_assoc]

theorem Spells.ne_nil {tree : Tree} {names : List String} (spells : tree.Spells names) :
    names ≠ [] := by
  cases spells with
  | name => exact List.cons_ne_nil _ _
  | field => exact List.append_ne_nil_of_right_ne_nil _ (List.cons_ne_nil _ _)

theorem Spells.dotted? {tree : Tree} {names : List String} (spells : tree.Spells names) :
    tree.dotted? = some (Text.joined "." names) := by
  induction spells with
  | name => rfl
  | field field spells inductionHypothesis =>
    rw [Tree.dotted?, inductionHypothesis, joined_append_singleton spells.ne_nil]
    rfl

/-- A tree that has a dotted name is a chain of names. -/
theorem spells_of_dotted? {tree : Tree} {text : String} (dotted : tree.dotted? = some text) :
    ∃ names, tree.Spells names := by
  induction tree using children_induction generalizing text with
  | step tree inductionHypothesis =>
    cases tree with
    | identifier name => exact ⟨_, .name name⟩
    | «attribute» object field =>
      obtain ⟨receiver, spelled, -⟩ := Option.map_eq_some_iff.mp dotted
      obtain ⟨names, spells⟩ := inductionHypothesis object List.mem_cons_self spelled
      exact ⟨_, .field field spells⟩
    | _ => exact nomatch dotted

/-- The name under which a tree is called is the one that is read off it. -/
theorem calledAs_iff {function : Tree} {name : String} :
    function.CalledAs name ↔ function.callee? = some name := by
  constructor
  · intro called
    cases called with
    | chain spells =>
      have dotted := spells.dotted?
      cases spells with
      | name => rfl
      | field => rw [callee?, dotted, Option.getD_some]
    | @computed object _ other =>
      rw [callee?]
      cases dotted : (Tree.attribute object name).dotted? with
      | none => rfl
      | some text =>
        obtain ⟨_, spells⟩ := spells_of_dotted? dotted
        cases spells with
        | field _ spells => exact absurd spells (other _)
  · intro called
    cases function with
    | identifier text => exact Option.some.inj called ▸ .chain (.name text)
    | «attribute» object field =>
      obtain rfl := Option.some.inj called
      cases dotted : (Tree.attribute object field).dotted? with
      | some text =>
        obtain ⟨names, spells⟩ := spells_of_dotted? dotted
        obtain rfl := Option.some.inj (dotted.symm.trans spells.dotted?)
        exact .chain spells
      | none =>
        refine .computed field fun names spells => ?_
        exact nomatch dotted.symm.trans (spells.field field).dotted?
    | _ => exact nomatch called

theorem isName_iff_callee? {function : Tree} : function.IsName ↔ function.callee?.isSome := by
  cases function <;> simp [IsName, callee?]

/-! ### Owners and circumstances -/

/-- The name of a definition. No other node has one of its own. -/
def definedName? : Tree → Option String
  | .definition name _ _ _ => some name
  | _ => none

/-- The circumstances that a loop or branch puts its parts in. Other nodes leave them as they are.
-/
def circumstance? : Tree → Option CallType
  | .loop _ => some .loop
  | .branch _ => some .conditional
  | _ => none

/-- The name of the innermost definition around an address, if there is any definition around it. -/
def owner? (tree : Tree) (address : List Nat) : Option String :=
  (tree.around address).findSome? definedName?

/-- The circumstances at an address: those of the nearest loop or branch below the innermost
definition, and direct where there is none. -/
def circumstances (tree : Tree) (address : List Nat) : CallType :=
  (((tree.around address).takeWhile fun node => node.definedName?.isNone).findSome?
    circumstance?).getD .direct

/-- The place inside a node that stands at a place. -/
def Place.below (place : Place) : Tree → Place
  | .definition name _ _ _ => .inside name
  | .loop _ => place.under .loop
  | .branch _ => place.under .conditional
  | _ => place

theorem foldr_below (nodes : List Tree) :
    nodes.foldr (fun node place => Place.below place node) .outermost =
      ⟨nodes.findSome? definedName?,
        (nodes.takeWhile fun node => node.definedName?.isNone).findSome? circumstance?⟩ := by
  induction nodes with
  | nil => rfl
  | cons node nodes inductionHypothesis =>
    rw [List.foldr_cons, inductionHypothesis]
    -- A definition hides the circumstances around it, a loop or branch those further out.
    cases node <;> rfl

/-! ### The calls of a tree -/

/-- The call that a node itself makes at a place, apart from those in its parts. -/
def callOf (place : Place) : Tree → List (String × CallSite)
  | .call function _ => callAt place function
  | _ => []

/-- The call of the node at an address, in a tree that stands at a place. -/
def callsAt (place : Place) (tree : Tree) (address : List Nat) : List (String × CallSite) :=
  ((tree.at? address).map
    (callOf ((tree.around address).foldr (fun node place => place.below node) place))).getD []

theorem callsOf_eq_flatMap (place : Place) (trees : List Tree) :
    callsOf place trees = trees.flatMap (calls place) := by
  induction trees with
  | nil => rfl
  | cons tree trees inductionHypothesis =>
    rw [callsOf, inductionHypothesis, List.flatMap_cons]

theorem calls_eq (place : Place) (tree : Tree) :
    tree.calls place = callOf place tree ++ tree.children.flatMap (calls (place.below tree)) := by
  cases tree <;> simp [calls, callsOf_eq_flatMap, callOf, children, Place.below]

/-- The calls of a tree are the calls at its addresses. -/
theorem calls_eq_flatMap (place : Place) (tree : Tree) :
    tree.calls place = tree.addresses.flatMap (callsAt place tree) :=
  eq_flatMap_addresses calls_eq place tree

/-! ### The calls of a function -/

/-- The call site at an address, if the address has this owner. -/
def siteAt? (tree : Tree) (owner : String) (address : List Nat) : Option CallSite :=
  match tree.at? address with
  | some (.call function _) =>
    if tree.owner? address = some owner then
      function.callee?.map fun callee => ⟨callee, tree.circumstances address⟩
    else none
  | _ => none

theorem siteAt?_eq_some {tree : Tree} {owner : String} {address : List Nat} {site : CallSite} :
    tree.siteAt? owner address = some site ↔
      ∃ function arguments, tree.at? address = some (.call function arguments) ∧
        tree.owner? address = some owner ∧ function.callee? = some site.callee ∧
          site.callType = tree.circumstances address := by
  unfold siteAt?
  constructor
  · intro made
    split at made
    case h_1 function arguments found =>
      split_ifs at made with owned
      obtain ⟨callee, called, rfl⟩ := Option.map_eq_some_iff.mp made
      exact ⟨function, arguments, found, owned, called, rfl⟩
    case h_2 => exact nomatch made
  · rintro ⟨function, arguments, found, owned, called, circumstances⟩
    simp only [found, owned, if_true, called, Option.map_some, ← circumstances]

theorem toList_siteAt? (tree : Tree) (owner : String) (address : List Nat) :
    (tree.siteAt? owner address).toList =
      ((callsAt .outermost tree address).filter fun site => site.1 == owner).map Prod.snd := by
  have place := foldr_below (tree.around address)
  have ofOwner := congrArg Place.owner place
  have ofCircumstance := congrArg (fun place => place.circumstance.getD .direct) place
  change _ = tree.owner? address at ofOwner
  change _ = tree.circumstances address at ofCircumstance
  unfold siteAt? callsAt
  cases found : tree.at? address with
  | none => rfl
  | some node =>
    cases node with
    | call function arguments =>
      simp only [Option.map_some, Option.getD_some, callOf, callAt, ofOwner, ofCircumstance]
      cases tree.owner? address with
      | none => simp
      | some name => cases function.callee? <;> by_cases same : name = owner <;> simp [same]
    | _ => rfl

theorem calls_of_mem_functions {tree : Tree} {function : ExtractedFunction}
    (member : function ∈ tree.functions) :
    function.calls = tree.addresses.filterMap (tree.siteAt? function.name) := by
  obtain ⟨definition, -, rfl⟩ := List.mem_map.mp member
  rw [List.filterMap_eq_flatMap_toList]
  simp only [functionOf, toList_siteAt?, calls_eq_flatMap, List.filter_flatMap, List.map_flatMap]

/-! ### The functions of a tree -/

theorem nodup_names_firstDefinitions (definitions : List Definition) :
    ((firstDefinitions definitions).map Definition.name).Nodup := by
  induction definitions with
  | nil => exact List.nodup_nil
  | cons first rest inductionHypothesis =>
    rw [firstDefinitions, List.map_cons, List.nodup_cons]
    refine ⟨fun repeated => ?_, (List.filter_sublist.map _).nodup inductionHypothesis⟩
    obtain ⟨other, member, same⟩ := List.mem_map.mp repeated
    simp [same] at member

theorem mem_names_firstDefinitions {definitions : List Definition} {name : String}
    (member : name ∈ definitions.map Definition.name) :
    name ∈ (firstDefinitions definitions).map Definition.name := by
  induction definitions with
  | nil => exact member
  | cons first rest inductionHypothesis =>
    rw [firstDefinitions, List.map_cons, List.mem_cons]
    refine or_iff_not_imp_left.mpr fun other => ?_
    have later := inductionHypothesis ((List.mem_cons.mp member).resolve_left other)
    obtain ⟨definition, among, rfl⟩ := List.mem_map.mp later
    exact List.mem_map.mpr ⟨definition, List.mem_filter.mpr ⟨among, bne_iff_ne.mpr other⟩, rfl⟩

theorem names_functions (tree : Tree) :
    tree.functions.map ExtractedFunction.name =
      (firstDefinitions tree.definitions).map Definition.name := by
  rw [functions, List.map_map]
  rfl

theorem nodup_names_functions (tree : Tree) :
    (tree.functions.map ExtractedFunction.name).Nodup := by
  rw [names_functions]
  exact nodup_names_firstDefinitions _

theorem mem_definitionsOf {trees : List Tree} {definition : Definition} :
    definition ∈ definitionsOf trees ↔ ∃ tree ∈ trees, definition ∈ tree.definitions := by
  induction trees with
  | nil => simp [definitionsOf]
  | cons tree trees inductionHypothesis => simp [definitionsOf, inductionHypothesis]

theorem mem_definitions_of_child {tree child : Tree} {definition : Definition}
    (isPart : child ∈ tree.children) (member : definition ∈ child.definitions) :
    definition ∈ tree.definitions := by
  cases tree with
  | identifier => exact nomatch isPart
  | «attribute» object field => exact List.mem_singleton.mp isPart ▸ member
  | call function arguments =>
    rw [definitions, List.mem_append, mem_definitionsOf]
    obtain rfl | among := List.mem_cons.mp isPart
    · exact Or.inl member
    · exact Or.inr ⟨child, among, member⟩
  | definition => exact List.mem_cons_of_mem _ (mem_definitionsOf.mpr ⟨child, isPart, member⟩)
  | _ => exact mem_definitionsOf.mpr ⟨child, isPart, member⟩

theorem mem_names_of_around {tree node : Tree} {address : List Nat} {name : String}
    (member : node ∈ tree.around address) (defined : node.definedName? = some name) :
    name ∈ tree.definitions.map Definition.name := by
  induction address generalizing tree with
  | nil => exact absurd member List.not_mem_nil
  | cons part address inductionHypothesis =>
    cases found : tree.children[part]? with
    | none => simp [around, found] at member
    | some child =>
      rw [around, found, List.mem_append, List.mem_singleton] at member
      obtain inside | rfl := member
      · obtain ⟨definition, among, named⟩ := List.mem_map.mp (inductionHypothesis inside)
        exact List.mem_map.mpr
          ⟨definition, mem_definitions_of_child (List.mem_of_getElem? found) among, named⟩
      · cases node with
        | definition => exact Option.some.inj defined ▸ List.mem_cons_self
        | _ => exact absurd defined (Option.some_ne_none name).symm

/-- The innermost definition around an address gives one of the functions its name. -/
theorem mem_names_of_owner? {tree : Tree} {address : List Nat} {name : String}
    (owned : tree.owner? address = some name) :
    name ∈ tree.functions.map ExtractedFunction.name := by
  obtain ⟨node, around, defined⟩ := List.exists_of_findSome?_eq_some owned
  rw [names_functions]
  exact mem_names_firstDefinitions (mem_names_of_around around defined)

/-! ### One call site for each call -/

/-- A call site of a tree: one of the functions, and one of its calls. -/
structure Site (tree : Tree) where
  /-- The place of the function among the functions. -/
  slot : Fin tree.functions.length
  /-- The place of the call among the calls of the function. -/
  index : Fin tree.functions[slot].calls.length

/-- A call by name that stands inside a definition. -/
structure OwnedCall (tree : Tree) where
  /-- The address of the call. -/
  address : List Nat
  /-- The function part. -/
  function : Tree
  /-- The arguments. -/
  arguments : List Tree
  /-- The name of the innermost definition around the call. -/
  owner : String
  /-- The call stands at the address. -/
  found : tree.at? address = some (.call function arguments)
  /-- The function part is an identifier or an attribute. -/
  isName : function.IsName
  /-- The call has this owner. -/
  owned : tree.owner? address = some owner

section
variable {tree : Tree}

/-- The function of a call site, which holds the calls of its definitions. -/
def Site.function (site : tree.Site) : ExtractedFunction :=
  tree.functions[site.slot]

/-- The call of a call site, as it is recorded. -/
def Site.call (site : tree.Site) : CallSite :=
  tree.functions[site.slot].calls[site.index]

/-- The call site records the call: under its owner, with its name and its circumstances. -/
structure Site.Records (site : tree.Site) (call : tree.OwnedCall) : Prop where
  /-- The function bears the name of the innermost definition around the call. -/
  owner : site.function.name = call.owner
  /-- The recorded name is the one under which the function part is called. -/
  callee : call.function.CalledAs site.call.callee
  /-- The recorded circumstances are those of the call. -/
  circumstances : site.call.callType = tree.circumstances call.address

theorem OwnedCall.eq_of_address {one other : tree.OwnedCall} (same : one.address = other.address) :
    one = other := by
  obtain ⟨address, function, arguments, owner, found, isName, owned⟩ := one
  obtain ⟨_, _, _, _, foundOther, _, ownedOther⟩ := other
  obtain rfl : address = _ := same
  obtain ⟨rfl, rfl⟩ := Tree.call.inj (Option.some.inj (found.symm.trans foundOther))
  obtain rfl := Option.some.inj (owned.symm.trans ownedOther)
  rfl

theorem Site.eq_of_index {one other : tree.Site} (slot : one.slot = other.slot)
    (index : (one.index : Nat) = other.index) : one = other := by
  obtain ⟨place, first⟩ := one
  obtain ⟨_, second⟩ := other
  obtain rfl : place = _ := slot
  exact congrArg (Site.mk place) (Fin.ext index)

/-- Functions of one name are one function, as they are gathered by name. -/
theorem Site.slot_eq_of_name {one other : tree.Site}
    (same : one.function.name = other.function.name) : one.slot = other.slot := by
  have named : ∀ slot : Fin tree.functions.length,
      (tree.functions.map ExtractedFunction.name)[(slot : Nat)]? =
        some tree.functions[slot].name :=
    fun slot => by rw [List.getElem?_map, List.getElem?_eq_getElem slot.isLt]; rfl
  have inside : (one.slot : Nat) < (tree.functions.map ExtractedFunction.name).length :=
    one.slot.isLt.trans_eq (List.length_map _).symm
  refine Fin.ext ((List.getElem?_inj inside (nodup_names_functions tree)).mp ?_)
  rw [named, named]
  exact congrArg some same

end

/-- The addresses of the calls of an owner, in the order of the text. -/
def callAddresses (tree : Tree) (owner : String) : List (List Nat) :=
  tree.addresses.filter fun address => (tree.siteAt? owner address).isSome

theorem pairwise_lt_callAddresses (tree : Tree) (owner : String) :
    (tree.callAddresses owner).Pairwise (· < ·) :=
  (pairwise_lt_addresses tree).sublist List.filter_sublist

theorem forall₂_filterMap {Item Made : Type} (make : Item → Option Made) (items : List Item) :
    List.Forall₂ (fun item made => make item = some made)
      (items.filter fun item => (make item).isSome) (items.filterMap make) := by
  induction items with
  | nil => exact .nil
  | cons item items inductionHypothesis =>
    cases made : make item with
    | none => simpa [made] using inductionHypothesis
    | some result => simpa [made] using inductionHypothesis

/-- The calls of a function are the call sites at the addresses of its calls, one after the
other. -/
theorem forall₂_callAddresses {tree : Tree} {function : ExtractedFunction}
    (member : function ∈ tree.functions) :
    List.Forall₂ (fun address site => tree.siteAt? function.name address = some site)
      (tree.callAddresses function.name) function.calls := by
  rw [calls_of_mem_functions member]
  exact forall₂_filterMap _ _

theorem mem_callAddresses {tree : Tree} (call : tree.OwnedCall) :
    call.address ∈ tree.callAddresses call.owner := by
  obtain ⟨callee, called⟩ := Option.isSome_iff_exists.mp (isName_iff_callee?.mp call.isName)
  have made : tree.siteAt? call.owner call.address = some ⟨callee, _⟩ :=
    siteAt?_eq_some.mpr ⟨call.function, call.arguments, call.found, call.owned, called, rfl⟩
  refine List.mem_filter.mpr ⟨mem_addresses.mpr ?_, by rw [made, Option.isSome_some]⟩
  rw [call.found, Option.isSome_some]

section
variable {tree : Tree}

theorem Site.length_callAddresses (site : tree.Site) :
    (tree.callAddresses site.function.name).length = tree.functions[site.slot].calls.length :=
  (forall₂_callAddresses (List.getElem_mem _)).length_eq

/-- The address of the call that a call site records: the one with the same index among the
addresses of its function. -/
def Site.address (site : tree.Site) : List Nat :=
  (tree.callAddresses site.function.name).get (Fin.cast site.length_callAddresses.symm site.index)

/-- Each call site records the call at its address, with its owner, name and circumstances. -/
theorem Site.exists_call (site : tree.Site) :
    ∃ call : tree.OwnedCall, call.address = site.address ∧ site.Records call := by
  have made : tree.siteAt? site.function.name site.address = some site.call :=
    (forall₂_callAddresses (List.getElem_mem site.slot.isLt)).get _ _
  obtain ⟨function, arguments, found, owned, called, circumstances⟩ := siteAt?_eq_some.mp made
  have isName : function.IsName := isName_iff_callee?.mpr (called ▸ rfl)
  exact ⟨⟨site.address, function, arguments, _, found, isName, owned⟩, rfl, rfl,
    calledAs_iff.mpr called, circumstances⟩

/-- The call sites of one function stand in the order of their addresses. -/
theorem Site.address_lt_iff {one other : tree.Site} (same : one.slot = other.slot) :
    one.address < other.address ↔ (one.index : Nat) < other.index := by
  obtain ⟨slot, first⟩ := one
  obtain ⟨_, second⟩ := other
  obtain rfl : slot = _ := same
  exact (pairwise_lt_callAddresses tree _).sortedLT.strictMono_get.lt_iff_lt

theorem Site.eq_of_address {one other : tree.Site} (slot : one.slot = other.slot)
    (address : one.address = other.address) : one = other := by
  refine Site.eq_of_index slot (Nat.le_antisymm ?_ ?_)
  · exact Nat.not_lt.mp fun before => ne_of_lt ((address_lt_iff slot.symm).mpr before) address.symm
  · exact Nat.not_lt.mp fun before => ne_of_lt ((address_lt_iff slot).mpr before) address

/-- Each call has a call site at its address, so no call is lost. -/
theorem OwnedCall.exists_site (call : tree.OwnedCall) :
    ∃ site : tree.Site, site.function.name = call.owner ∧ site.address = call.address := by
  obtain ⟨slot, inside, named⟩ := List.getElem_of_mem (mem_names_of_owner? call.owned)
  rw [List.getElem_map] at named
  have inside : slot < tree.functions.length := by rwa [List.length_map] at inside
  obtain ⟨index, found⟩ := List.get_of_mem (named ▸ mem_callAddresses call)
  have length := (forall₂_callAddresses (List.getElem_mem inside)).length_eq
  exact ⟨⟨⟨slot, inside⟩, Fin.cast length index⟩, named, found⟩

end

/-- No call is lost and none is recorded twice: the call sites of all functions correspond one to
one to the calls by name inside definitions. Each site records its call, and the sites of one
function stand in the order of the text. -/
theorem callSites_correspond (tree : Tree) :
    (tree.functions.map ExtractedFunction.name).Nodup ∧
      ∃ call : tree.Site ≃ tree.OwnedCall, (∀ site : tree.Site, site.Records (call site)) ∧
        ∀ one other : tree.Site, one.slot = other.slot →
          ((one.index : Nat) < other.index ↔ (call one).address < (call other).address) := by
  choose call address records using fun site : tree.Site => site.exists_call
  have injective : Function.Injective call := by
    intro one other same
    refine Site.eq_of_address (Site.slot_eq_of_name ?_) ?_
    · rw [(records one).owner, (records other).owner, same]
    · rw [← address one, ← address other, same]
  have surjective : Function.Surjective call := by
    intro wanted
    obtain ⟨site, -, found⟩ := wanted.exists_site
    exact ⟨site, OwnedCall.eq_of_address ((address site).trans found)⟩
  have bijective : Function.Bijective call := ⟨injective, surjective⟩
  refine ⟨nodup_names_functions tree, Equiv.ofBijective call bijective, records, ?_⟩
  intro one other same
  rw [Equiv.ofBijective_apply, Equiv.ofBijective_apply, address, address]
  exact (Site.address_lt_iff same).symm

example :
    (Tree.definition "outer" 1 "def outer()" [.loop [.call (.identifier "go") []],
      .definition "inner" 2 "def inner()"
        [.call (.attribute (.call (.identifier "make") []) "run") []]]).functions.map
      (fun function => (function.name, function.calls)) =
    [("outer", [⟨"go", .loop⟩]), ("inner", [⟨"run", .direct⟩, ⟨"make", .direct⟩])] := by
  decide +kernel

end MigrationGuard.Python.Tree

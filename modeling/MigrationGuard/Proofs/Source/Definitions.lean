/-
This file says how the functions of a syntax tree are made up of its definitions.
Each definition has calls and environment reads of its own: those below it that no
other definition further in encloses. A function gathers what the definitions of
its name have. The line scanner gathers in the same way, so both readers of a
source deliver functions of one shape. What belongs to a definition is told by
addresses: the innermost definition around an address is at one place only, so the
addresses that a name owns are shared out among the definitions of that name, each
to one of them. The functions take their calls by the name of the owner and not by
the place of the definition, which gives the same calls, though those of a
definition further in may stand between others; so the calls of a function are
those of its definitions up to their order.
-/

import MigrationGuard.Proofs.Source.CallSites
import MigrationGuard.Proofs.Source.Gathering
import MigrationGuard.Source.Python.Statement

namespace MigrationGuard.Python.Tree

/-! ### The definition around an address -/

/-- The addresses of the nodes around an address, the innermost first. -/
def enclosing : List Nat → List (List Nat)
  | [] => []
  | part :: address => (enclosing address).map (List.cons part) ++ [[]]

/-- The address of the innermost definition around an address, if there is one. -/
def innermost? (tree : Tree) (address : List Nat) : Option (List Nat) :=
  (enclosing address).find? fun outer => ((tree.at? outer).bind definedName?).isSome

theorem around_eq_filterMap {tree : Tree} {address : List Nat}
    (present : (tree.at? address).isSome) :
    tree.around address = (enclosing address).filterMap tree.at? := by
  induction address generalizing tree with
  | nil => rfl
  | cons part address inductionHypothesis =>
    rw [at?] at present
    cases found : tree.children[part]? with
    | none => simp [found] at present
    | some child =>
      rw [found, Option.bind_some] at present
      have below : ∀ path, tree.at? (part :: path) = child.at? path := fun path => by
        rw [at?, found, Option.bind_some]
      have here : tree.at? [] = some tree := rfl
      simp only [around, found, inductionHypothesis present, enclosing, List.filterMap_append,
        List.filterMap_map, Function.comp_def, below, List.filterMap_cons, here,
        List.filterMap_nil]

theorem findSome?_eq_bind {Item Made : Type} (make : Item → Option Made) (items : List Item) :
    items.findSome? make = (items.find? fun item => (make item).isSome).bind make := by
  induction items with
  | nil => rfl
  | cons item items inductionHypothesis =>
    rw [List.findSome?_cons, List.find?_cons, inductionHypothesis]
    cases made : make item <;> simp [made]

/-- The owner of an address is the name of the innermost definition around it. -/
theorem owner?_eq {tree : Tree} {address : List Nat} (present : (tree.at? address).isSome) :
    tree.owner? address =
      (tree.innermost? address).bind fun outer => (tree.at? outer).bind definedName? := by
  rw [owner?, around_eq_filterMap present, ← List.head?_filterMap, List.filterMap_filterMap,
    List.head?_filterMap, findSome?_eq_bind]
  rfl

/-- An address has an owner just if the innermost definition around it bears that name. -/
theorem owner?_eq_some {tree : Tree} {address : List Nat} {name : String}
    (present : (tree.at? address).isSome) :
    tree.owner? address = some name ↔ ∃ outer, tree.innermost? address = some outer ∧
      (tree.at? outer).bind definedName? = some name := by
  rw [owner?_eq present, Option.bind_eq_some_iff]

/-! ### Environment reads of a tree -/

/-- A name that is `os.environ` or begins with it, dot and all. -/
def NamesEnvironment (name : String) : Prop :=
  name = "os.environ" ∨ ∃ rest, name = "os.environ." ++ rest

/-- The tree is an attribute, and its chain of names is about the environment. -/
def IsEnvironmentRead (tree : Tree) : Prop :=
  ∃ object field names, tree = .attribute object field ∧ tree.Spells names ∧
    NamesEnvironment (Text.joined "." names)

theorem isEnvironmentName_iff {name : String} :
    isEnvironmentName name ↔ NamesEnvironment name := by
  have begins : Text.beginsWith name "os.environ." ↔ ∃ rest, name = "os.environ." ++ rest := by
    rw [Text.beginsWith, List.isPrefixOf_iff_prefix]
    constructor
    · rintro ⟨rest, split⟩
      refine ⟨String.ofList rest, String.toList_inj.mp ?_⟩
      exact split.symm.trans
        ((congrArg _ String.toList_ofList.symm).trans String.toList_append.symm)
    · rintro ⟨rest, rfl⟩
      exact ⟨rest.toList, String.toList_append.symm⟩
  rw [isEnvironmentName, Bool.or_eq_true, beq_iff_eq, begins, NamesEnvironment]

/-- What reads the environment at a node itself, apart from its parts. -/
def readOf (owner : Option String) : Tree → List String
  | .attribute object field => readAt owner (.attribute object field)
  | _ => []

theorem readsEnvironment_iff {tree : Tree} :
    tree.readsEnvironment ↔
      ∃ names, tree.Spells names ∧ NamesEnvironment (Text.joined "." names) := by
  rw [readsEnvironment]
  constructor
  · intro reads
    cases dotted : tree.dotted? with
    | none => simp [dotted] at reads
    | some text =>
      obtain ⟨names, spells⟩ := spells_of_dotted? dotted
      obtain rfl := Option.some.inj (dotted.symm.trans spells.dotted?)
      rw [dotted, Option.map_some, Option.getD_some] at reads
      exact ⟨names, spells, isEnvironmentName_iff.mp reads⟩
  · rintro ⟨names, spells, reads⟩
    rw [spells.dotted?, Option.map_some, Option.getD_some]
    exact isEnvironmentName_iff.mpr reads

theorem mem_readOf {owner : Option String} {tree : Tree} {name : String} :
    name ∈ readOf owner tree ↔ tree.IsEnvironmentRead ∧ owner = some name := by
  cases tree with
  | «attribute» object field =>
    have same : (Tree.attribute object field).IsEnvironmentRead ↔
        (Tree.attribute object field).readsEnvironment := by
      rw [readsEnvironment_iff]
      exact ⟨fun ⟨_, _, names, made, reads⟩ => ⟨names, made ▸ reads⟩,
        fun ⟨names, reads⟩ => ⟨object, field, names, rfl, reads⟩⟩
    rw [readOf, readAt, same]
    split_ifs with reads <;> simp [reads]
  | _ => simp [readOf, IsEnvironmentRead]

theorem environmentOwnersOf_eq_flatMap (owner : Option String) (trees : List Tree) :
    environmentOwnersOf owner trees = trees.flatMap (environmentOwners owner) := by
  induction trees with
  | nil => rfl
  | cons tree trees inductionHypothesis =>
    rw [environmentOwnersOf, inductionHypothesis, List.flatMap_cons]

theorem environmentOwners_eq (owner : Option String) (tree : Tree) :
    tree.environmentOwners owner = readOf owner tree ++
      tree.children.flatMap (environmentOwners (tree.definedName?.or owner)) := by
  cases tree <;>
    simp [environmentOwners, environmentOwnersOf_eq_flatMap, readOf, children, definedName?]

theorem foldr_definedName? (nodes : List Tree) :
    nodes.foldr (fun node owner => node.definedName?.or owner) none =
      nodes.findSome? definedName? := by
  induction nodes with
  | nil => rfl
  | cons node nodes inductionHypothesis =>
    rw [List.foldr_cons, inductionHypothesis, List.findSome?_cons]
    cases node.definedName? <;> rfl

/-- A name reads the environment just if it owns an address at which that is done. -/
theorem mem_environmentOwners {tree : Tree} {name : String} :
    name ∈ tree.environmentOwners none ↔ ∃ address node, tree.at? address = some node ∧
      node.IsEnvironmentRead ∧ tree.owner? address = some name := by
  rw [eq_flatMap_addresses environmentOwners_eq, List.mem_flatMap]
  simp only [foldr_definedName?]
  refine exists_congr fun address => ?_
  rw [mem_addresses]
  cases tree.at? address with
  | none => simp
  | some node =>
    simp only [Option.isSome_some, true_and, Option.map_some, Option.getD_some, mem_readOf,
      Option.some.injEq, exists_eq_left']
    rfl

/-! ### Definitions in a tree -/

/-- The definition that a node is, if it is one. -/
def definitionOf? : Tree → Option Definition
  | .definition name line signature _ => some ⟨name, line, signature⟩
  | _ => none

theorem map_name_definitionOf? (tree : Tree) :
    tree.definitionOf?.map Definition.name = tree.definedName? := by
  cases tree <;> rfl

theorem definitionsOf_eq_flatMap (trees : List Tree) :
    definitionsOf trees = trees.flatMap definitions := by
  induction trees with
  | nil => rfl
  | cons tree trees inductionHypothesis =>
    rw [definitionsOf, inductionHypothesis, List.flatMap_cons]

theorem definitions_eq (tree : Tree) :
    tree.definitions = tree.definitionOf?.toList ++ tree.children.flatMap definitions := by
  cases tree <;> simp [definitions, definitionsOf_eq_flatMap, definitionOf?, children]

/-- The definitions of a tree are those at its addresses, in the order of the text. -/
theorem definitions_eq_filterMap (tree : Tree) :
    tree.definitions =
      tree.addresses.filterMap fun address => (tree.at? address).bind definitionOf? := by
  have along := @eq_flatMap_addresses Unit Definition (fun _ => definitions)
    (fun _ node => node.definitionOf?.toList) (fun place _ => place) (fun _ => definitions_eq) ()
    tree
  rw [along, List.filterMap_eq_flatMap_toList]
  refine List.flatMap_congr fun address _ => ?_
  cases tree.at? address <;> rfl

/-- The addresses whose innermost definition is the one at a place. No address is inside two of
them. -/
def inside (tree : Tree) (place : List Nat) : List (List Nat) :=
  tree.addresses.filter fun address => tree.innermost? address = some place

/-- The call site of the call by name at an address, if such a call stands there. -/
def callSite? (tree : Tree) (address : List Nat) : Option CallSite :=
  match tree.at? address with
  | some (.call function _) =>
    function.callee?.map fun callee => ⟨callee, tree.circumstances address⟩
  | _ => none

/-- A definition at a place, with the calls and the environment reads inside it that are inside no
definition further in. -/
def foundDefinition (tree : Tree) (place : List Nat) (definition : Definition) : FoundDefinition :=
  { name := definition.name
    line := definition.line
    signature := definition.signature
    calls := (tree.inside place).filterMap tree.callSite?
    readsEnvironment :=
      ∃ address ∈ tree.inside place, ∃ node ∈ tree.at? address, node.IsEnvironmentRead }

/-- The definition at a place, if there is one, with what is inside it. -/
def foundAt? (tree : Tree) (place : List Nat) : Option FoundDefinition :=
  ((tree.at? place).bind definitionOf?).map (tree.foundDefinition place)

/-- The definitions in a tree, in the order of the text. -/
def found (tree : Tree) : List FoundDefinition :=
  tree.addresses.filterMap tree.foundAt?

/-- What the text says of a definition: its name, its line and its signature. -/
def ofFound (definition : FoundDefinition) : Definition :=
  ⟨definition.name, definition.line, definition.signature⟩

theorem definitions_eq_map_found (tree : Tree) :
    tree.definitions = tree.found.map ofFound := by
  rw [definitions_eq_filterMap, found, List.map_filterMap]
  refine List.filterMap_congr fun address _ => ?_
  rw [foundAt?, Option.map_map]
  exact Option.map_id'.symm

/-! ### First definitions -/

/-- The first definitions stand in the order of the text, one for each name. -/
theorem pairwise_firstDefinitions (definitions : List Definition) :
    ((firstDefinitions definitions).map Definition.name).Pairwise
      (Keyed.Precedes Definition.name definitions) := by
  induction definitions with
  | nil => exact .nil
  | cons first rest inductionHypothesis =>
    rw [firstDefinitions, List.map_cons, List.pairwise_cons, List.pairwise_map]
    constructor
    · intro name member
      obtain ⟨other, among, rfl⟩ := List.mem_map.mp member
      refine ⟨[], first, rest, rfl, rfl, fun earlier same => ?_⟩
      obtain rfl := List.mem_singleton.mp same
      exact (bne_iff_ne.mp (List.mem_filter.mp among).2).symm
    · refine ((List.pairwise_map.mp inductionHypothesis).sublist List.filter_sublist).imp_of_mem ?_
      rintro one other - among ⟨before, row, after, rfl, isOne, none⟩
      refine ⟨first :: before, row, after, rfl, isOne, fun earlier member => ?_⟩
      obtain rfl | later := List.mem_cons.mp member
      · exact (bne_iff_ne.mp (List.mem_filter.mp among).2).symm
      · exact none earlier later

/-- Each of the first definitions comes before all others of its name. -/
theorem filter_of_mem_firstDefinitions {definitions : List Definition} {definition : Definition}
    (member : definition ∈ firstDefinitions definitions) :
    ∃ later, (definitions.filter fun other => other.name = definition.name) =
      definition :: later := by
  induction definitions with
  | nil => exact nomatch member
  | cons first rest inductionHypothesis =>
    obtain rfl | among := List.mem_cons.mp member
    · exact ⟨_, List.filter_cons_of_pos (decide_eq_true rfl)⟩
    · obtain ⟨inRest, other⟩ := List.mem_filter.mp among
      obtain ⟨later, found⟩ := inductionHypothesis inRest
      refine ⟨later, (List.filter_cons_of_neg ?_).trans found⟩
      exact fun same => bne_iff_ne.mp other (of_decide_eq_true same).symm

/-! ### The definitions of one name -/

/-- The addresses of the definitions of a name, in the order of the text. -/
def places (tree : Tree) (name : String) : List (List Nat) :=
  tree.addresses.filter fun place => (tree.at? place).bind definedName? = some name

theorem definitionsNamed_found (tree : Tree) (name : String) :
    definitionsNamed name tree.found = (tree.places name).filterMap tree.foundAt? := by
  rw [definitionsNamed, found, places, List.filter_filterMap, List.filterMap_filter]
  refine List.filterMap_congr fun place _ => ?_
  rw [foundAt?]
  cases tree.at? place with
  | none => rfl
  | some node =>
    rw [Option.bind_some, Option.bind_some, ← map_name_definitionOf?]
    cases node.definitionOf? <;> simp [Option.filter, foundDefinition]

theorem exists_foundAt?_of_mem_places {tree : Tree} {place : List Nat} {name : String}
    (member : place ∈ tree.places name) :
    ∃ definition, tree.foundAt? place = some (tree.foundDefinition place definition) := by
  obtain ⟨-, named⟩ := List.mem_filter.mp member
  obtain ⟨node, found, defined⟩ := Option.bind_eq_some_iff.mp (of_decide_eq_true named)
  obtain ⟨definition, made, -⟩ :=
    Option.map_eq_some_iff.mp ((map_name_definitionOf? node).trans defined)
  exact ⟨definition, by rw [foundAt?, found, Option.bind_some, made, Option.map_some]⟩

/-- An address is inside one of the definitions of its owner, and of no other name. -/
theorem mem_inside_places {tree : Tree} {address : List Nat} {name : String} :
    (∃ place ∈ tree.places name, address ∈ tree.inside place) ↔
      address ∈ tree.addresses ∧ tree.owner? address = some name := by
  simp only [places, inside, List.mem_filter, decide_eq_true_eq, mem_addresses]
  constructor
  · rintro ⟨place, ⟨-, named⟩, present, within⟩
    exact ⟨present, (owner?_eq_some present).mpr ⟨place, within, named⟩⟩
  · rintro ⟨present, owned⟩
    obtain ⟨place, within, named⟩ := (owner?_eq_some present).mp owned
    refine ⟨place, ⟨?_, named⟩, present, within⟩
    exact Option.isSome_of_isSome_bind (Option.isSome_iff_exists.mpr ⟨name, named⟩)

/-- The addresses of an owner are those inside its definitions, each inside one of them. -/
theorem owned_perm_inside (tree : Tree) (name : String) :
    (tree.addresses.filter fun address => tree.owner? address = some name).Perm
      ((tree.places name).flatMap tree.inside) := by
  have distinct : tree.addresses.Nodup := (pairwise_lt_addresses tree).imp ne_of_lt
  have distinctInside : ∀ place, (tree.inside place).Nodup := fun _ => distinct.filter _
  have apart : (tree.places name).Pairwise (Function.onFun List.Disjoint tree.inside) := by
    refine (distinct.filter _).imp fun different address inOne inOther => different ?_
    have one := of_decide_eq_true (List.mem_filter.mp inOne).2
    have other := of_decide_eq_true (List.mem_filter.mp inOther).2
    exact Option.some.inj (one.symm.trans other)
  -- Neither side repeats an address, so it is enough that both have the same ones.
  refine (List.perm_ext_iff_of_nodup (distinct.filter _)
    (List.nodup_flatMap.mpr ⟨fun place _ => distinctInside place, apart⟩)).mpr fun address => ?_
  rw [List.mem_flatMap, mem_inside_places, List.mem_filter, decide_eq_true_eq]

theorem siteAt?_eq (tree : Tree) (name : String) (address : List Nat) :
    tree.siteAt? name address =
      if tree.owner? address = some name then tree.callSite? address else none := by
  rw [siteAt?, callSite?]
  cases tree.at? address with
  | none => simp
  | some node => cases node <;> simp

/-- The calls of a function are those of the definitions of its name. -/
theorem calls_perm_found {tree : Tree} {function : ExtractedFunction}
    (member : function ∈ tree.functions) : function.calls.Perm
      ((definitionsNamed function.name tree.found).flatMap FoundDefinition.calls) := by
  have ofFunction : function.calls = (tree.addresses.filter fun address =>
      tree.owner? address = some function.name).filterMap tree.callSite? := by
    rw [calls_of_mem_functions member, List.filterMap_filter]
    refine List.filterMap_congr fun address _ => ?_
    simp only [siteAt?_eq, decide_eq_true_eq]
  have ofDefinitions : (definitionsNamed function.name tree.found).flatMap FoundDefinition.calls =
      ((tree.places function.name).flatMap tree.inside).filterMap tree.callSite? := by
    rw [definitionsNamed_found, List.filterMap_eq_flatMap_toList, List.flatMap_assoc,
      List.filterMap_flatMap]
    refine List.flatMap_congr fun place among => ?_
    obtain ⟨definition, made⟩ := exists_foundAt?_of_mem_places among
    rw [made]
    exact List.flatMap_singleton _ _
  rw [ofFunction, ofDefinitions]
  exact (owned_perm_inside tree function.name).filterMap _

/-- One of the definitions of a name reads the environment just if the name is among the readers. -/
theorem exists_readsEnvironment_iff {tree : Tree} {name : String} :
    (∃ definition ∈ definitionsNamed name tree.found, definition.readsEnvironment) ↔
      name ∈ tree.environmentOwners none := by
  have ofDefinitions :
      (∃ definition ∈ definitionsNamed name tree.found, definition.readsEnvironment) ↔
        ∃ place ∈ tree.places name,
          ∃ address ∈ tree.inside place, ∃ node ∈ tree.at? address, node.IsEnvironmentRead := by
    rw [definitionsNamed_found]
    simp only [List.mem_filterMap]
    constructor
    · rintro ⟨definition, ⟨place, among, made⟩, reads⟩
      obtain ⟨_, -, rfl⟩ := Option.map_eq_some_iff.mp made
      exact ⟨place, among, reads⟩
    · rintro ⟨place, among, reads⟩
      obtain ⟨definition, made⟩ := exists_foundAt?_of_mem_places among
      exact ⟨_, ⟨place, among, made⟩, reads⟩
  rw [ofDefinitions, mem_environmentOwners]
  constructor
  · rintro ⟨place, among, address, within, node, found, reads⟩
    exact ⟨address, node, found, reads, (mem_inside_places.mp ⟨place, among, within⟩).2⟩
  · rintro ⟨address, node, found, reads, owned⟩
    have present : address ∈ tree.addresses := mem_addresses.mpr (found ▸ rfl)
    obtain ⟨place, among, within⟩ := mem_inside_places.mpr ⟨present, owned⟩
    exact ⟨place, among, address, within, node, found, reads⟩

/-- The functions of a tree are made up of its definitions, as those of a text are of its own. -/
theorem gatheredFrom_functions (tree : Tree) : GatheredFrom tree.functions tree.found := by
  have names : tree.definitions.map Definition.name = tree.found.map FoundDefinition.name := by
    rw [definitions_eq_map_found, List.map_map]
    rfl
  refine ⟨nodup_names_functions tree, fun name => ?_, ?_, fun function member => ?_,
    fun function member => calls_perm_found member, fun function member effect => ?_⟩
  · rw [names_functions, ← names]
    refine ⟨fun member => ?_, mem_names_firstDefinitions⟩
    obtain ⟨definition, among, rfl⟩ := List.mem_map.mp member
    obtain ⟨later, first⟩ := filter_of_mem_firstDefinitions among
    refine List.mem_map_of_mem (List.mem_of_mem_filter (first ▸ List.mem_cons_self))
  · rw [names_functions]
    refine (pairwise_firstDefinitions _).imp fun precedes => ?_
    rw [definitions_eq_map_found] at precedes
    exact precedes.of_map
  · obtain ⟨definition, among, rfl⟩ := List.mem_map.mp member
    obtain ⟨later, first⟩ := filter_of_mem_firstDefinitions among
    rw [definitions_eq_map_found, List.filter_map] at first
    obtain ⟨whole, rest, split, rfl, -⟩ := List.map_eq_cons_iff.mp first
    exact ⟨whole, rest, split, rfl, rfl⟩
  · rw [exists_readsEnvironment_iff]
    obtain ⟨definition, -, rfl⟩ := List.mem_map.mp member
    have ofCalls : ∀ calls : List CallSite, ToldByCalls calls effect ↔
        (EffectSet.unionAll (calls.map fun call => classifyCall call.callee)).contains effect := by
      intro calls
      simp [ToldByCalls, EffectSet.contains_unionAll]
    rw [ofCalls]
    simp only [functionOf, List.contains_iff_mem]
    split_ifs with reads
    · rw [EffectSet.contains_union, Bool.or_eq_true, contains_environmentRead, and_iff_left reads]
    · rw [or_iff_left fun mentioned => reads mentioned.2]

end MigrationGuard.Python.Tree

namespace MigrationGuard

/-! ### Both readers -/

/-- Both readers of a source deliver functions that are gathered from the definitions they find. The
line scanner finds those that begin on a line, in the order of the lines, and it puts the calls of
a function in the order of its definitions. -/
theorem readers_gather_definitions :
    (∀ (window : Nat) (module source : String),
      let lines := Text.lines source.toList
      let found := LineScanner.found window lines
      let extracted := LineScanner.extract window module source
      (∀ definition, definition ∈ found ↔ ∃ place header region,
        LineScanner.BeginsAt definition window lines place header region) ∧
        found.Pairwise (fun one other => one.line < other.line) ∧
        extracted.module = module ∧ GatheredFrom extracted.functions found ∧
        ∀ function ∈ extracted.functions, function.calls =
          (definitionsNamed function.name found).flatMap FoundDefinition.calls) ∧
    (∀ tree : Python.Tree, GatheredFrom tree.functions tree.found) ∧
    ∀ (module source : String) (extracted : ExtractedModule),
      Python.extract module source = .ok extracted →
        ∃ tree, Python.parse source = .ok tree ∧ extracted.module = module ∧
          GatheredFrom extracted.functions tree.found := by
  refine ⟨fun window module source => ?_, Python.Tree.gatheredFrom_functions,
    fun module source extracted accepted => ?_⟩
  · intro lines found extracted
    refine ⟨fun _ => LineScanner.mem_found_iff, LineScanner.pairwise_found window lines, ?_⟩
    have functions : extracted.functions = mergeFunctions (found.map FoundDefinition.function) :=
      LineScanner.functions_extract_eq window module source
    rw [functions]
    exact ⟨rfl, gatheredFrom_mergeFunctions found⟩
  · rw [Python.extract] at accepted
    cases parsed : Python.parse source with
    | error fault => exact nomatch parsed ▸ accepted
    | ok tree =>
      rw [parsed] at accepted
      obtain rfl := Except.ok.inj accepted
      exact ⟨tree, rfl, rfl, tree.gatheredFrom_functions⟩

example :
    (Python.Tree.group
      [.definition "load" 1 "def load()" [.call (.identifier "go") []],
       .definition "store" 4 "def store()" [],
       .definition "load" 7 "def load(path)"
        [.call (.identifier "open") [.attribute (.identifier "os") "environ"]]]).functions =
    [⟨"load", 1, "def load()", [⟨"go", .direct⟩, ⟨"open", .direct⟩], .ofList [.fileIo, .envRead]⟩,
     ⟨"store", 4, "def store()", [], .empty⟩] := by
  decide +kernel

end MigrationGuard

/-
This file says what actions do in an arbitrary world. An action may ensure
something of its result, may leave what is seen of the world alone, may lead from
worlds of one kind to worlds of another, and two actions may agree in worlds that
are alike. Each of these holds of a sequence of actions if it holds of the parts,
which is stated once for all such properties: a property that composes holds of
whatever is put together from actions that have it. Nothing is assumed about the
world, so what is proved with these notions holds of every way in which files,
runners and memories may answer. The theorems about sessions and memories walk
through the definitions with them, action by action, and never look into a world.
-/

namespace MigrationGuard

variable {World : Type}

theorem pure_apply {Answer : Type} (answer : Answer) (world : World) :
    (pure answer : StateM World Answer) world = (answer, world) :=
  rfl

/-- The second of two actions starts with the answer and in the world that the first one left. Every
walk through a definition is made of this step. -/
theorem bind_apply {Answer Result : Type} (action : StateM World Answer)
    (next : Answer → StateM World Result) (world : World) :
    (action >>= next) world = next (action world).1 (action world).2 :=
  rfl

/-- Where two actions succeed, the first one did, if the second one fails with it. So a call that
went well is known to have gone well at every step. -/
theorem done_of_bind {Failure Trouble Answer Result : Type}
    {action : StateM World (Except Failure Answer)}
    {next : Except Failure Answer → StateM World (Except Trouble Result)} {world later : World}
    {result : Result}
    (fails : ∀ failure world, (next (.error failure) world).1.toBool = false)
    (done : (action >>= next) world = (.ok result, later)) :
    ∃ answer between, action world = (.ok answer, between) ∧
      next (.ok answer) between = (.ok result, later) := by
  rw [bind_apply] at done
  rcases outcome : action world with ⟨failure | answer, between⟩
  · have failed := fails failure between
    rw [outcome] at done
    rw [done] at failed
    exact nomatch failed
  · rw [outcome] at done
    exact ⟨answer, between, rfl, done⟩

/-! ### What sequences of actions keep -/

/-- A sequence of actions has the property if its parts have it. A definition that is made of such
parts then has it without being opened again. -/
structure Composes (property : (Answer : Type) → StateM World Answer → Prop) : Prop where
  /-- An action that only gives an answer has the property. -/
  pure : ∀ {Answer : Type} (answer : Answer), property Answer (pure answer)
  /-- Two actions that have it may follow each other. -/
  bind : ∀ {Answer Result : Type} {action : StateM World Answer}
    {next : Answer → StateM World Result}, property Answer action →
      (∀ answer, property Result (next answer)) → property Result (action >>= next)

/-! ### What actions ensure -/

/-- Whatever the world is like, the result of the action has the property. What becomes of the world
is left open. -/
def Ensures {Result : Type} (action : StateM World Result) (property : Result → Prop) : Prop :=
  ∀ world, property (action world).1

theorem Ensures.pure {Result : Type} {result : Result} {property : Result → Prop}
    (holds : property result) : Ensures (pure result : StateM World Result) property :=
  fun _ => holds

theorem Ensures.bind {First Result : Type} {first : StateM World First}
    {next : First → StateM World Result} {property : Result → Prop}
    (each : ∀ result, Ensures (next result) property) : Ensures (first >>= next) property :=
  fun world => each (first world).1 (first world).2

/-! ### What actions carry over -/

/-- The action leads from worlds with one property to worlds with another. What it answers is left
open. -/
def Carries {Answer : Type} (before after : World → Prop) (action : StateM World Answer) : Prop :=
  ∀ world, before world → after (action world).2

section
variable {Answer Result : Type} {before between after : World → Prop}

theorem Carries.pure (same : ∀ world, before world → after world) (answer : Answer) :
    Carries before after (pure answer : StateM World Answer) :=
  same

theorem Carries.bind {action : StateM World Answer} {next : Answer → StateM World Result}
    (carries : Carries before between action)
    (each : ∀ answer, Carries between after (next answer)) :
    Carries before after (action >>= next) :=
  fun world holds => each _ _ (carries world holds)

end

/-! ### What actions leave alone -/

/-- The action leaves what is seen of the world as it was, whatever it answers and whatever else it
does. -/
def Leaves {Seen Answer : Type} (seen : World → Seen) (action : StateM World Answer) : Prop :=
  ∀ world, seen (action world).2 = seen world

section
variable {Seen Answer Result : Type} {seen : World → Seen}

theorem Leaves.pure (answer : Answer) : Leaves seen (pure answer : StateM World Answer) :=
  fun _ => rfl

/-- What an action leaves alone is the same in the world that it ended in. -/
theorem Leaves.same {action : StateM World Answer} (leaves : Leaves seen action)
    {answer : Answer} {world later : World} (ran : action world = (answer, later)) :
    seen later = seen world :=
  (congrArg (fun outcome => seen outcome.2) ran).symm.trans (leaves world)

/-- What is left alone is left alone from every point of view, so one fact about the whole serves
all its parts. -/
theorem Leaves.through {Whole : Type} {whole : World → Whole} {action : StateM World Answer}
    (leaves : Leaves whole action) (view : Whole → Seen) :
    Leaves (fun world => view (whole world)) action :=
  fun world => congrArg view (leaves world)

theorem Leaves.bind {action : StateM World Answer} {next : Answer → StateM World Result}
    (leaves : Leaves seen action) (each : ∀ answer, Leaves seen (next answer)) :
    Leaves seen (action >>= next) :=
  fun world => (each _ _).trans (leaves world)

theorem Leaves.composes (seen : World → Seen) : Composes fun _ => Leaves seen :=
  ⟨Leaves.pure, Leaves.bind⟩

end

/-! ### Actions in worlds that are alike -/

/-- In worlds that are alike the two actions give the same as far as something is taken of their
answers, and the worlds that they leave are alike again. -/
def Agrees {Answer Taken : Type} (like : World → World → Prop) (taken : Answer → Taken)
    (left right : StateM World Answer) : Prop :=
  ∀ first second, like first second →
    taken (left first).1 = taken (right second).1 ∧ like (left first).2 (right second).2

section
variable {like : World → World → Prop} {Answer Taken Result Kept : Type}

theorem Agrees.pure {left right : Answer} {taken : Answer → Taken}
    (same : taken left = taken right) :
    Agrees like taken (pure left : StateM World Answer) (pure right) :=
  fun _ _ alike => ⟨same, alike⟩

theorem Agrees.bind {left right : StateM World Answer} {taken : Answer → Taken}
    {leftNext rightNext : Answer → StateM World Result} {kept : Result → Kept}
    (agrees : Agrees like taken left right)
    (next : ∀ one other, taken one = taken other →
      Agrees like kept (leftNext one) (rightNext other)) :
    Agrees like kept (left >>= leftNext) (right >>= rightNext) := by
  intro first second alike
  obtain ⟨same, left⟩ := agrees first second alike
  exact next _ _ same _ _ left

/-- Where the whole answer is taken, both actions go on with the same one, so it is enough to
compare what follows for equal answers. -/
theorem Agrees.bind_same {left right : StateM World Answer}
    {leftNext rightNext : Answer → StateM World Result} {kept : Result → Kept}
    (agrees : Agrees like id left right)
    (next : ∀ answer, Agrees like kept (leftNext answer) (rightNext answer)) :
    Agrees like kept (left >>= leftNext) (right >>= rightNext) :=
  agrees.bind fun one other (same : one = other) => same ▸ next one

/-- Where the whole answers agree, so does what is taken of them, such as whether a call failed. -/
theorem Agrees.taking {left right : StateM World Answer} (agrees : Agrees like id left right)
    (taken : Answer → Taken) : Agrees like taken left right :=
  fun first second alike =>
    ⟨congrArg taken (agrees first second alike).1, (agrees first second alike).2⟩

/-- Actions that leave alone what is seen agree about it, if their answers agree. -/
theorem Agrees.of_leaves {Seen : Type} {seen : World → Seen} {left right : StateM World Answer}
    {taken : Answer → Taken} (leaves : Leaves seen left) (leavesToo : Leaves seen right)
    (same : ∀ first second, taken (left first).1 = taken (right second).1) :
    Agrees (fun first second => seen first = seen second) taken left right :=
  fun first second alike =>
    ⟨same first second, (leaves first).trans (alike.trans (leavesToo second).symm)⟩

/-- Actions that agree and leave what is seen alone also agree about what is seen. -/
theorem Agrees.with_leaves {Seen : Type} {seen : World → Seen}
    {left right : StateM World Answer} {taken : Answer → Taken}
    (agrees : Agrees like taken left right) (leaves : Leaves seen left)
    (leavesToo : Leaves seen right) :
    Agrees (fun first second => like first second ∧ seen first = seen second) taken left right := by
  intro first second alike
  obtain ⟨same, left⟩ := agrees first second alike.1
  exact ⟨same, left, (leaves first).trans (alike.2.trans (leavesToo second).symm)⟩

/-- Where an action leads from worlds with a property to such worlds, it agrees with itself in each
of them. -/
theorem Carries.agrees {holds : World → Prop} {action : StateM World Answer}
    (carries : Carries holds holds action) (taken : Answer → Taken) :
    Agrees (fun first second => first = second ∧ holds first) taken action action := by
  rintro world _ ⟨rfl, held⟩
  exact ⟨rfl, rfl, carries world held⟩

theorem Agrees.carries {holds : World → Prop} {action : StateM World Answer}
    {taken : Answer → Taken}
    (agrees : Agrees (fun first second => first = second ∧ holds first) taken action action) :
    Carries holds holds action :=
  fun world held => (agrees world world ⟨rfl, held⟩).2.2

end

/-! ### Answers that are alike -/

section
variable {Failure Answer Taken : Type} {one other : Except Failure Answer}

theorem toBool_cases (same : one.toBool = other.toBool) :
    (∃ failure otherFailure, one = .error failure ∧ other = .error otherFailure) ∨
      ∃ answer otherAnswer, one = .ok answer ∧ other = .ok otherAnswer := by
  cases one <;> cases other <;> simp_all [Except.toBool]

theorem toOption_cases (same : one.toOption = other.toOption) :
    (∃ failure otherFailure, one = .error failure ∧ other = .error otherFailure) ∨
      ∃ answer, one = .ok answer ∧ other = .ok answer := by
  cases one <;> cases other <;> simp_all [Except.toOption]

theorem map_cases {take : Answer → Taken} (same : one.map take = other.map take) :
    (∃ failure, one = .error failure ∧ other = .error failure) ∨
      ∃ answer otherAnswer, one = .ok answer ∧ other = .ok otherAnswer ∧
        take answer = take otherAnswer := by
  cases one <;> cases other <;> simp_all [Except.map]

end

end MigrationGuard

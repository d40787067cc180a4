/-
# Functions settle

What a function at hand gives, or why it fails, hangs on the page, the configuration, the input and the
arguments alone, and not on the moment either. A highlight is no exception: the name that it takes and
the moment go into its markers and not into its value.

Key definitions: `Setting.moved`, `TerminalFunction.Settles`, `TerminalFunction.Timeless`,
`Functions.Settled`.
Key theorems: `ResultSet.mapLeaves_agree`, `Functions.builtin_timeless`, `Functions.builtin_settled`.
-/
import PageQuery.Engine.Functions
import PageQuery.Proofs.Component.Elements
import PageQuery.Proofs.Engine.Outcome
import PageQuery.Proofs.Json.Canonical

namespace PageQuery

/-- A run fails for reasons of its own only, not for the limit on nested values. -/
def Halt.IsError (h : Halt) : Prop := h ≠ .exhausted

theorem Halt.isError (e : QueryError) : (Halt.error e).IsError := fun h => (nomatch h)

/-- The setting at another moment. -/
def Setting.moved (setting : Setting) (now : Nat) : Setting := { setting with now }

open Run

namespace TerminalFunction

/-- Whatever the function is given, it settles. -/
def Settles (f : TerminalFunction) : Prop :=
  ∀ setting input args, Run.Settles Halt.IsError (f setting input args)

/-- Whatever the function is given, it agrees with itself between any two moments. -/
def Timeless (f : TerminalFunction) : Prop := ∀ (setting : Setting) (now later : Nat) input args,
  Agree Halt.IsError (f (setting.moved later) input args) (f (setting.moved now) input args)

theorem Timeless.settles {f : TerminalFunction} (h : f.Timeless) : f.Settles := fun setting =>
  h setting setting.now setting.now

end TerminalFunction

section leaves

variable {allowed : Halt → Prop} {f g : ResultSet → Run Json}

mutual

/-- What agrees at every leaf agrees on the whole. -/
theorem ResultSet.mapLeaves_agree (h : ∀ leaf, Agree allowed (f leaf) (g leaf)) :
    ∀ r : ResultSet, Agree allowed (r.mapLeaves f) (r.mapLeaves g)
  | .null => h .null
  | .nodes ns => h (.nodes ns)
  | .components is => h (.components is)
  | .array items => (mapLeavesOfAll_agree h items).bind fun _ => Agree.pure _

theorem ResultSet.mapLeavesOfAll_agree (h : ∀ leaf, Agree allowed (f leaf) (g leaf)) :
    ∀ items : List ResultSet, Agree allowed (mapLeavesOfAll f items) (mapLeavesOfAll g items)
  | [] => Agree.pure []
  | r :: rest => (mapLeaves_agree h r).bind fun _ =>
    (mapLeavesOfAll_agree h rest).bind fun _ => Agree.pure _

end

end leaves

namespace Functions

theorem nodesOf?_settles {allowed : Halt → Prop} (setting : Setting) : ∀ leaf : ResultSet,
    Run.Settles allowed (nodesOf? setting leaf)
  | .null => Agree.pure none
  | .nodes _ => Agree.pure _
  | .components components =>
    (Settles.ofIdentified (setting.page.elementsOfAll_answers components)).bind fun _ => Agree.pure _
  | .array _ => Agree.pure none

theorem text_timeless : text.Timeless := fun setting _ _ input _ =>
  ResultSet.mapLeaves_agree (fun leaf => (nodesOf?_settles setting leaf).bind fun nodes? => by
    cases nodes? with
    | none => exact Agree.pure _
    | some nodes => exact Agree.pure _) input

theorem existence_timeless : existence.Timeless := fun _ _ _ _ _ => Agree.pure _

theorem count_timeless : count.Timeless := fun _ _ _ _ _ => Agree.pure _

theorem prop_timeless : prop.Timeless := by
  intro setting now later input args
  unfold prop
  split
  · exact Agree.throw (Halt.isError _)
  · refine ResultSet.mapLeaves_agree (fun leaf => ?_) input
    split
    · exact Agree.throw (Halt.isError _)
    · exact Agree.pure _
    · exact Agree.pure _

theorem firstControl_agree (setting : Setting) (now later : Nat) (component : InstanceId) :
    ∀ controls : List String, Agree Halt.IsError (firstControl (setting.moved later) component controls)
      (firstControl (setting.moved now) component controls)
  | [] => Agree.pure none
  | control :: rest => by
    unfold firstControl
    refine Agree.bind (Settles.ofSearch (setting.page.searchWithin_finds control [component])
      Halt.isError) fun found => ?_
    cases found with
    | nil => exact firstControl_agree setting now later component rest
    | cons n more => exact Agree.pure _

theorem interactionTarget_agree (setting : Setting) (now later : Nat) (component : InstanceId) :
    Agree Halt.IsError (interactionTarget (setting.moved later) component)
      (interactionTarget (setting.moved now) component) := by
  refine (firstControl_agree setting now later component _).bind fun control => ?_
  cases control with
  | some n => exact Agree.pure _
  | none => exact (Settles.ofIdentified (setting.page.elementsOf_answers component)).bind fun _ => Agree.pure _

theorem interactionElement_timeless : interactionElement.Timeless := by
  intro setting now later input args
  unfold interactionElement
  split
  · exact Agree.pure _
  · exact Agree.throw (Halt.isError _)
  · exact Agree.pure _
  · exact Agree.pure _
  · exact Agree.throw (Halt.isError _)
  · exact Agree.pure _
  · exact (interactionTarget_agree setting now later _).bind fun _ => Agree.pure _
  · exact Agree.throw (Halt.isError _)

theorem highlight_timeless : highlight.Timeless := by
  intro setting now later input args
  unfold highlight Setting.moved
  dsimp only
  cases timeoutOf setting.config args with
  | error e => exact Agree.throw (Halt.isError _)
  | ok timeout? =>
    -- the two runs may take different names
    refine Agree.onOverlay_bind fun uid uid' => ?_
    refine Agree.bind (ResultSet.mapLeaves_agree (fun leaf => ?_) input) fun _ => Agree.pure _
    refine Agree.bind (nodesOf?_settles setting leaf) fun nodes? => ?_
    cases nodes? with
    | none => exact Agree.pure _
    | some nodes =>
      dsimp only
      cases Rect.unionAll (nodes.map setting.page.rect) with
      | none => exact Agree.pure _
      | some rect => exact Agree.onOverlay_bind fun _ _ => Agree.pure _

/-- The functions at hand read no clock that shows in what they give. -/
theorem builtin_timeless : ∀ entry ∈ builtin.entries, entry.2.Timeless := by
  rintro ⟨name, f⟩ listed
  simp only [builtin, List.mem_cons, Prod.mk.injEq, List.not_mem_nil, or_false] at listed
  rcases listed with ⟨-, rfl⟩ | ⟨-, rfl⟩ | ⟨-, rfl⟩ | ⟨-, rfl⟩ | ⟨-, rfl⟩ | ⟨-, rfl⟩
  · exact count_timeless
  · exact existence_timeless
  · exact highlight_timeless
  · exact interactionElement_timeless
  · exact prop_timeless
  · exact text_timeless

/-- Every function settles. -/
def Settled (fs : Functions) : Prop := ∀ entry ∈ fs.entries, entry.2.Settles

/-- **The functions at hand settle.** -/
theorem builtin_settled : builtin.Settled := fun entry listed => (builtin_timeless entry listed).settles

theorem Settled.find {fs : Functions} (h : fs.Settled) {name : String} {f : TerminalFunction}
    (found : fs.find? name = some f) : f.Settles := h _ (Fields.mem_of_find? found)

theorem Settled.register {fs : Functions} (h : fs.Settled) (name : String) {f : TerminalFunction}
    (hf : f.Settles) : (fs.register name f).Settled := fun _ mem =>
  (Fields.mem_put mem).elim (fun e => e ▸ hf) (h _)

end Functions

end PageQuery

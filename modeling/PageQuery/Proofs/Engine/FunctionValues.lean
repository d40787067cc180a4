/-
# What the values of functions read as

The value of a function can serve as a context if it reads as one. Of the functions at hand only `prop`
has values that may read as anything but handles, since it copies what the props of the page hold: the
others give texts, numbers, truth values, the handle of a node, or arrays of texts. The value of a prop
reads as handles too if the props of the page do and none of them is a truth value, which would mark
the array around it as the root.

Key definitions: `TerminalFunction.ReadsHandles`, `Page.PropsMarkNothing`.
Key theorems: `ResultSet.mapLeaves_yields`, `Functions.readsHandles_of_ne_prop`,
`Functions.prop_readsHandles`.
-/
import PageQuery.Proofs.Engine.Functions
import PageQuery.Proofs.Query.Handles

namespace PageQuery

open Run

/-! ### Values of leaves -/

section leaves

variable {f : ResultSet → Run Json} {P : Json → Prop}

mutual

/-- What holds of the values of leaves and carries over to arrays holds of the whole. -/
theorem ResultSet.mapLeaves_yields (h : ∀ leaf, Yields (f leaf) P)
    (arrays : ∀ values, (∀ v ∈ values, P v) → P (.array values)) :
    ∀ r : ResultSet, Yields (r.mapLeaves f) P
  | .null => h .null
  | .nodes ns => h (.nodes ns)
  | .components is => h (.components is)
  | .array items => (mapLeavesOfAll_yields h arrays items).bind fun _ all => Yields.pure (arrays _ all)

theorem ResultSet.mapLeavesOfAll_yields (h : ∀ leaf, Yields (f leaf) P)
    (arrays : ∀ values, (∀ v ∈ values, P v) → P (.array values)) :
    ∀ items : List ResultSet, Yields (mapLeavesOfAll f items) fun values => ∀ v ∈ values, P v
  | [] => Yields.pure fun _ hv => (nomatch hv)
  | r :: rest => (mapLeaves_yields h arrays r).bind fun _ first =>
    (mapLeavesOfAll_yields h arrays rest).bind fun _ others =>
      Yields.pure (List.forall_mem_cons.mpr ⟨first, others⟩)

end

/-- Leaves whose values mark nothing make a value that reads as handles. -/
theorem ResultSet.mapLeaves_readsHandles (h : ∀ leaf, Yields (f leaf) Json.MarksNothing) (r : ResultSet) :
    Yields (r.mapLeaves f) Json.ReadsHandles :=
  (mapLeaves_yields h (fun _ => Json.marksNothing_array) r).mono fun _ marks => marks.2

end leaves

/-! ### The functions at hand -/

/-- Whatever the function is given, its value reads as handles, if as a context at all. -/
def TerminalFunction.ReadsHandles (f : TerminalFunction) (setting : Setting) : Prop :=
  ∀ input args, Yields (f setting input args) Json.ReadsHandles

/-- No prop of the page is a truth value, and each reads as handles, if as a context at all. -/
def Page.PropsMarkNothing (page : Page) : Prop :=
  ∀ i key v, (page.props i).field? key = some v → v.MarksNothing

namespace Functions

variable {setting : Setting}

theorem text_readsHandles : text.ReadsHandles setting := fun input _ =>
  ResultSet.mapLeaves_readsHandles (fun _ => Yields.of_rest fun nodes? => by
    cases nodes? with
    | none => exact Yields.pure Json.marksNothing_null
    | some nodes => exact Yields.pure (Json.marksNothing_string _)) input

theorem existence_readsHandles : existence.ReadsHandles setting := fun _ _ =>
  Yields.pure (Json.readsHandles_of_none rfl)

theorem count_readsHandles : count.ReadsHandles setting := fun _ _ =>
  Yields.pure (Json.readsHandles_of_none rfl)

theorem highlight_readsHandles : highlight.ReadsHandles setting := by
  intro input args
  unfold highlight
  split
  · exact Yields.fail _
  · exact Yields.of_rest fun _ => Yields.of_rest fun _ => Yields.pure (Json.readsHandles_of_none rfl)

theorem handle?_readsHandles : ∀ n? : Option NodeId, (handle? n?).ReadsHandles
  | none => Json.marksNothing_null.2
  | some n => Json.readsHandles_node n

theorem interactionElement_readsHandles : interactionElement.ReadsHandles setting := by
  intro input args
  unfold interactionElement
  split
  · exact Yields.pure Json.marksNothing_null.2
  · exact Yields.fail _
  · exact Yields.pure Json.marksNothing_null.2
  · exact Yields.pure (handle?_readsHandles _)
  · exact Yields.fail _
  · exact Yields.pure Json.marksNothing_null.2
  · exact Yields.of_rest fun target => Yields.pure (handle?_readsHandles target)
  · exact Yields.fail _

/-- A prop is handed on as the page holds it, leaf by leaf. -/
theorem prop_yields {P : Json → Prop} (null : P .null)
    (props : ∀ i key v, (setting.page.props i).field? key = some v → P v)
    (arrays : ∀ values, (∀ v ∈ values, P v) → P (.array values)) (input : ResultSet) (args : List Json) :
    Yields (prop setting input args) P := by
  unfold prop
  split
  · exact Yields.fail _
  · next key _ =>
    refine ResultSet.mapLeaves_yields (fun leaf => ?_) arrays input
    split
    · exact Yields.fail _
    · next first _ =>
      refine Yields.pure ?_
      cases e : (setting.page.props first).field? key with
      | none => exact null
      | some v => exact props first key v e
    · exact Yields.pure null

theorem prop_readsHandles (h : setting.page.PropsMarkNothing) : prop.ReadsHandles setting := fun input args =>
  (prop_yields Json.marksNothing_null h (fun _ => Json.marksNothing_array) input args).mono
    fun _ marks => marks.2

/-- **Of the functions at hand only `prop` has values that read as anything but handles.** -/
theorem readsHandles_of_ne_prop {name : String} {f : TerminalFunction} (h : builtin.find? name = some f)
    (other : name ≠ "prop") : f.ReadsHandles setting := by
  have listed := Fields.mem_of_find? h
  simp only [builtin, List.mem_cons, Prod.mk.injEq, List.not_mem_nil, or_false] at listed
  rcases listed with ⟨-, rfl⟩ | ⟨-, rfl⟩ | ⟨-, rfl⟩ | ⟨-, rfl⟩ | ⟨e, -⟩ | ⟨-, rfl⟩
  · exact count_readsHandles
  · exact existence_readsHandles
  · exact highlight_readsHandles
  · exact interactionElement_readsHandles
  · exact absurd e other
  · exact text_readsHandles

end Functions

end PageQuery

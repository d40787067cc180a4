/-
# Numbers in document order

The elements of a rendered tree are numbered as they are met from the top, an element before its
content. From an element on, the numbering of the whole goes like that of its own tree, so the elements
in it have the numbers that follow its own, as many as its tree has elements. An element is a child
exactly where its parent's content has it, and the children of an element ascend.

On the page of a rendering, an element refers to its content by trees. The number of a child is the
place of the element that was made with its serial, which is how instances refer to elements, too.

Key definitions: `PlacedElement.tree`, `ElementTree.topNumbers`, `Rendering.page`.
Key theorems: `ElementTree.placed_prefix_drop`, `ElementTree.placed_parent`, `Rendering.parent_spec`,
`Rendering.child_spec`, `Rendering.isWithin_iff`.
-/
import PageQuery.Fixture.Page

namespace PageQuery

/-- The tree of an element. -/
def PlacedElement.tree (e : PlacedElement) : ElementTree := .element e.head e.content

namespace ElementTree

/-- The numbers of the elements right in some content whose elements are numbered from `number`. -/
def topNumbers (number : Nat) : List ElementTree → List Nat
  | [] => []
  | .text _ :: rest => topNumbers number rest
  | .element head content :: rest =>
    number :: topNumbers (number + size (.element head content)) rest

variable {parent? : Option Nat} {number j : Nat} {e : PlacedElement}

@[simp] theorem size_tree (e : PlacedElement) : e.tree.size = 1 + sizeAll e.content := rfl

@[simp] theorem placed_tree : placed parent? number e.tree =
    ⟨parent?, e.head, e.content⟩ :: placedAll (some number) (number + 1) e.content := rfl

/-! ### From an element on -/

mutual

/-- From an element on, the numbering goes like that of its tree. -/
theorem placed_prefix_drop : ∀ {t : ElementTree} {parent? : Option Nat} {number j : Nat},
    (placed parent? number t)[j]? = some e →
      placed e.parent? (number + j) e.tree <+: (placed parent? number t).drop j
  | .element head content, parent?, number, 0, h => by
    obtain rfl : ⟨parent?, head, content⟩ = e := Option.some.inj h
    exact List.prefix_refl _
  | .element head content, parent?, number, j + 1, h => by
    have inner := @placedAll_prefix_drop content (some number) (number + 1) j h
    rw [Nat.add_assoc, Nat.add_comm 1 j] at inner
    exact inner

theorem placedAll_prefix_drop : ∀ {ts : List ElementTree} {parent? : Option Nat} {number j : Nat},
    (placedAll parent? number ts)[j]? = some e →
      placed e.parent? (number + j) e.tree <+: (placedAll parent? number ts).drop j
  | t :: rest, parent?, number, j, h => by
    have length := length_placed parent? number t
    rw [placedAll] at h ⊢
    by_cases first : j < size t
    · rw [List.getElem?_append_left (by omega)] at h
      rw [List.drop_append_of_le_length (by omega)]
      exact (placed_prefix_drop h).trans (List.prefix_append _ _)
    · rw [List.getElem?_append_right (by omega), length] at h
      have later := placedAll_prefix_drop h
      rw [List.drop_append, List.drop_of_length_le (by omega), List.nil_append, length]
      rwa [show number + size t + (j - size t) = number + j by omega] at later

end

/-! ### Parents -/

mutual

/-- An element is the top of its tree or stands in the content of an earlier one, its parent. -/
theorem placed_parent : ∀ {t : ElementTree} {parent? : Option Nat} {number j : Nat},
    (placed parent? number t)[j]? = some e →
      (j = 0 ∧ e.parent? = parent?) ∨ ∃ i a, i < j ∧ (placed parent? number t)[i]? = some a ∧
        e.parent? = some (number + i) ∧ e.tree ∈ a.content ∧
          number + j ∈ topNumbers (number + i + 1) a.content
  | .element head content, parent?, number, 0, h => by
    obtain rfl : ⟨parent?, head, content⟩ = e := Option.some.inj h
    exact .inl ⟨rfl, rfl⟩
  | .element head content, parent?, number, j + 1, h => by
    have shift : ∀ i, number + (i + 1) = number + 1 + i := fun i => by omega
    rcases @placedAll_parent content (some number) (number + 1) j h with
      ⟨same, tree, mem⟩ | ⟨i, a, lt, here, same, tree, mem⟩
    · exact .inr ⟨0, _, Nat.succ_pos j, rfl, same, tree, shift j ▸ mem⟩
    · exact .inr ⟨i + 1, a, Nat.succ_lt_succ lt, here, shift i ▸ same, tree,
        by rw [shift j, shift i]; exact mem⟩

theorem placedAll_parent : ∀ {ts : List ElementTree} {parent? : Option Nat} {number j : Nat},
    (placedAll parent? number ts)[j]? = some e →
      (e.parent? = parent? ∧ e.tree ∈ ts ∧ number + j ∈ topNumbers number ts) ∨
        ∃ i a, i < j ∧ (placedAll parent? number ts)[i]? = some a ∧
          e.parent? = some (number + i) ∧ e.tree ∈ a.content ∧
            number + j ∈ topNumbers (number + i + 1) a.content
  | .text _ :: rest, parent?, number, j, h =>
    (@placedAll_parent rest parent? number j h).imp_left fun ⟨same, tree, mem⟩ =>
      ⟨same, List.mem_cons_of_mem _ tree, mem⟩
  | .element head content :: rest, parent?, number, j, h => by
    have length := length_placed parent? number (.element head content)
    rw [placedAll] at h ⊢
    by_cases first : j < size (.element head content)
    · rw [List.getElem?_append_left (by omega)] at h
      rcases placed_parent h with ⟨rfl, same⟩ | ⟨i, a, lt, here, same, tree, mem⟩
      · obtain rfl : ⟨parent?, head, content⟩ = e := Option.some.inj h
        exact .inl ⟨same, List.mem_cons_self, List.mem_cons_self⟩
      · exact .inr ⟨i, a, lt, by rw [List.getElem?_append_left (by omega)]; exact here, same, tree, mem⟩
    · rw [List.getElem?_append_right (by omega), length] at h
      have back : number + size (.element head content) + (j - size (.element head content)) =
        number + j := by omega
      rcases placedAll_parent h with ⟨same, tree, mem⟩ | ⟨i, a, lt, here, same, tree, mem⟩
      · exact .inl ⟨same, List.mem_cons_of_mem _ tree, List.mem_cons_of_mem _ (back ▸ mem)⟩
      · refine .inr ⟨size (.element head content) + i, a, by omega, ?_, by rw [same, Nat.add_assoc],
          tree, ?_⟩
        · rw [List.getElem?_append_right (by omega), length, Nat.add_sub_cancel_left]
          exact here
        · rw [← back, ← Nat.add_assoc]
          exact mem

end

/-! ### Children -/

/-- The elements right in some content have numbers of it. -/
theorem topNumbers_bounds : ∀ {ts : List ElementTree} {number m : Nat}, m ∈ topNumbers number ts →
    number ≤ m ∧ m < number + sizeAll ts
  | .text _ :: rest, number, m, h => by
    have later := @topNumbers_bounds rest _ _ h
    rwa [sizeAll, size, Nat.zero_add]
  | .element head content :: rest, number, m, h => by
    have one : 1 ≤ size (.element head content) := Nat.le_add_right 1 _
    rw [sizeAll]
    rcases List.mem_cons.mp h with rfl | h
    · omega
    · have later := @topNumbers_bounds rest _ _ h
      omega

theorem topNumbers_ascending : ∀ {ts : List ElementTree} {number : Nat},
    (topNumbers number ts).Pairwise (· < ·)
  | [], _ => .nil
  | .text _ :: rest, _ => @topNumbers_ascending rest _
  | .element head content :: rest, number => by
    have one : 1 ≤ size (.element head content) := Nat.le_add_right 1 _
    refine List.pairwise_cons.mpr ⟨fun m hm => ?_, topNumbers_ascending⟩
    have later := topNumbers_bounds hm
    omega

/-- The elements right in some content have its parent. -/
theorem exists_of_mem_topNumbers : ∀ {ts : List ElementTree} {number m : Nat},
    m ∈ topNumbers number ts →
      ∃ a, (placedAll parent? number ts)[m - number]? = some a ∧ a.parent? = parent?
  | .text _ :: rest, _, _, h => @exists_of_mem_topNumbers rest _ _ h
  | .element head content :: rest, number, m, h => by
    have length := length_placed parent? number (.element head content)
    rw [placedAll]
    rcases List.mem_cons.mp h with rfl | h
    · exact ⟨⟨parent?, head, content⟩, by rw [Nat.sub_self]; rfl, rfl⟩
    · obtain ⟨low, -⟩ := topNumbers_bounds h
      obtain ⟨a, here, same⟩ := exists_of_mem_topNumbers h
      refine ⟨a, ?_, same⟩
      rw [List.getElem?_append_right (by omega), length,
        show m - number - size (.element head content) =
          m - (number + size (.element head content)) by omega]
      exact here

end ElementTree

open ElementTree

/-! ### The page of a rendering -/

namespace Rendering

/-- The page of a rendering, whether or not its markup keeps the tree. -/
def page (r : Rendering) : FixturePage where
  elements := (r.document.placed none 0).toArray
  instances := r.instances.toArray
  markup := String.ofList (Markup.document r.document)
  document := ⟨(MarkupTree.styleElementsAll none 0 (Markup.read (Markup.document r.document))).toArray⟩

end Rendering

/-- The page of a fixture that loads is that of its rendering. -/
theorem Fixture.exists_rendering {f : Fixture} {p : FixturePage} (h : f.load = .ok p) :
    ∃ r, f.render = .ok r ∧ p = r.page := by
  unfold load at h
  cases e : f.render with
  | error x => rw [e] at h; cases h
  | ok r =>
    rw [e] at h
    refine ⟨r, rfl, ?_⟩
    replace h : FixturePage.ofRendering r = .ok p := h
    unfold FixturePage.ofRendering at h
    dsimp only at h
    split at h
    · cases h
    · exact (Except.ok.inj h).symm

namespace Rendering

variable {r : Rendering} {m n : Nat} {e : PlacedElement}

@[simp]
theorem getElem?_elements : r.page.elements[n]? = (r.document.placed none 0)[n]? := List.getElem?_toArray

/-- What follows an element begins with its content, numbered on. -/
theorem placed_block (here : r.page.elements[n]? = some e) :
    placed e.parent? n e.tree <+: (r.document.placed none 0).drop n := by
  rw [getElem?_elements] at here
  have block := placed_prefix_drop here
  rwa [Nat.zero_add] at block

/-- The elements numbered from one on, as many as its tree has, are those of its tree. -/
theorem getElem?_placed (here : r.page.elements[n]? = some e) {i : Nat} (lt : i < e.tree.size) :
    (placed e.parent? n e.tree)[i]? = r.page.elements[n + i]? := by
  obtain ⟨rest, all⟩ := placed_block here
  have length := length_placed e.parent? n e.tree
  rw [getElem?_elements, ← List.getElem?_drop, ← all, List.getElem?_append_left (by omega)]

/-- The tree of an element ends within the document. -/
theorem add_size_le (here : r.page.elements[n]? = some e) :
    n + e.tree.size ≤ r.page.elements.size := by
  have block := (placed_block here).length_le
  obtain ⟨inside, -⟩ := Array.getElem?_eq_some_iff.mp here
  have size : r.page.elements.size = (r.document.placed none 0).length := List.size_toArray
  rw [length_placed, List.length_drop] at block
  omega

/-- The tree of an element in another's ends within that. -/
theorem add_size_le_of_within {a : PlacedElement} (outer : r.page.elements[n]? = some e)
    (inner : r.page.elements[m]? = some a) (low : n ≤ m) (high : m < n + e.tree.size) :
    m + a.tree.size ≤ n + e.tree.size := by
  obtain ⟨i, rfl⟩ : ∃ i, m = n + i := ⟨m - n, by omega⟩
  rw [← getElem?_placed outer (by omega)] at inner
  have block := (placed_prefix_drop inner).length_le
  rw [length_placed, List.length_drop, length_placed] at block
  omega

/-- **The first element has no parent, every other an earlier one in whose content it stands.** -/
theorem parent_spec (here : r.page.elements[m]? = some e) :
    (m = 0 ∧ e.parent? = none) ∨ ∃ q a, q < m ∧ r.page.elements[q]? = some a ∧
      e.parent? = some q ∧ e.tree ∈ a.content ∧ m ∈ topNumbers (q + 1) a.content := by
  simp only [getElem?_elements] at here ⊢
  simpa only [Nat.zero_add] using placed_parent here

/-- **What stands in the content of an element has it for its parent.** -/
theorem child_spec (here : r.page.elements[n]? = some e) (child : m ∈ topNumbers (n + 1) e.content) :
    ∃ a, r.page.elements[m]? = some a ∧ a.parent? = some n := by
  obtain ⟨low, high⟩ := topNumbers_bounds child
  obtain ⟨a, inside, same⟩ := @exists_of_mem_topNumbers (some n) _ _ _ child
  refine ⟨a, ?_, same⟩
  obtain ⟨i, rfl⟩ : ∃ i, m = n + 1 + i := ⟨m - (n + 1), by omega⟩
  have size := size_tree e
  rw [Nat.add_assoc, Nat.add_comm 1 i, ← getElem?_placed here (by omega), placed_tree,
    List.getElem?_cons_succ]
  rwa [Nat.add_sub_cancel_left] at inside

/-- The parent links of the page leave out none: each leads to an earlier node. -/
theorem parents_next (r : Rendering) (m : Nat) : r.page.toPage.parents.next ⟨m⟩ =
    ((r.page.elements[m]?).bind (·.parent?)).map NodeId.mk := by
  have falls : ∀ i j : Nat, (r.page.elements.map (·.parent?))[i]? = some (some j) → j < i := by
    intro i j h
    rw [Array.getElem?_map] at h
    obtain ⟨a, here, parent⟩ := Option.map_eq_some_iff.mp h
    rcases parent_spec here with ⟨-, none⟩ | ⟨q, -, lt, -, same, -⟩
    · rw [none] at parent; cases parent
    · obtain rfl : q = j := Option.some.inj (same.symm.trans parent)
      exact lt
  have next := Links.ofTable_next falls (fun i lt => Nat.le_of_lt lt) m
  show ((Links.ofTable _).next m).map NodeId.mk = _
  rw [next, Array.getElem?_map]
  cases r.page.elements[m]? <;> rfl

/-- A node lies within itself and within what its parent lies within. -/
theorem isWithin_step : r.page.toPage.isWithin ⟨m⟩ ⟨n⟩ = true ↔
    n = m ∨ ∃ q, (r.page.elements[m]?).bind (·.parent?) = some q ∧
      r.page.toPage.isWithin ⟨q⟩ ⟨n⟩ = true := by
  simp only [Page.isWithin, List.contains_iff_mem]
  rw [Links.mem_upward_iff, parents_next, NodeId.mk.injEq]
  refine or_congr_right ?_
  constructor
  · rintro ⟨c, next, within⟩
    obtain ⟨q, parent, rfl⟩ := Option.map_eq_some_iff.mp next
    exact ⟨q, parent, within⟩
  · rintro ⟨q, parent, within⟩
    exact ⟨⟨q⟩, Option.map_eq_some_iff.mpr ⟨q, parent, rfl⟩, within⟩

/-- **The nodes within a node are those numbered from it on, as many as its tree has elements.** Up the
parents one way, and down the numbers the other. -/
theorem isWithin_iff (here : r.page.elements[n]? = some e) :
    r.page.toPage.isWithin ⟨m⟩ ⟨n⟩ = true ↔ n ≤ m ∧ m < n + e.tree.size := by
  have one := size_tree e
  induction m using Nat.strongRecOn with
  | _ m ih =>
    rw [isWithin_step]
    constructor
    · rintro (rfl | ⟨q, parent, within⟩)
      · omega
      · obtain ⟨a, there, parent⟩ := Option.bind_eq_some_iff.mp parent
        rcases parent_spec there with ⟨-, none⟩ | ⟨q', b, lt, above, same, -, child⟩
        · rw [none] at parent; cases parent
        · obtain rfl : q' = q := Option.some.inj (same.symm.trans parent)
          obtain ⟨low, high⟩ := (ih q' lt).mp within
          have ends := add_size_le_of_within here above low high
          have inside := topNumbers_bounds child
          have size := size_tree b
          omega
    · rintro ⟨low, high⟩
      by_cases self : n = m
      · exact .inl self
      · obtain ⟨i, rfl⟩ : ∃ i, m = n + i := ⟨m - n, by omega⟩
        obtain ⟨a, there⟩ : ∃ a, (placed e.parent? n e.tree)[i]? = some a := by
          have length := length_placed e.parent? n e.tree
          exact ⟨_, List.getElem?_eq_getElem (by omega)⟩
        have parents := placed_parent there
        rw [getElem?_placed here (by omega)] at there
        rcases parents with ⟨zero, -⟩ | ⟨k, -, lt, -, same, -⟩
        · omega
        · refine .inr ⟨n + k, by rw [there]; exact same, (ih (n + k) (by omega)).mpr ?_⟩
          omega

end Rendering

end PageQuery

/-
# The text of the markup

The characters that markup holds within an element, its tags left out and its references resolved, are those
that are written within it. They are the text of the element if and only if no element without content
(`br`, `img` and the like) has text there: such text is counted by the page but not written. An element that
stands in one without content is not written at all.

The characters within an element are found from its start tag on, up to the end tag that leaves as many open
elements as there were. That is told of the marks of its tree, which stand in those of the document with
the numbers before its own in front of it, and those behind its tree behind it (`WrittenAt`).

Key definitions: `Markup.contentOf`, `Markup.characterData?`, `ElementTree.shown`, `WrittenAt`.
Key theorems: `ElementTree.contentOf_marks`, `ElementTree.shown_eq_iff`, `ElementTree.written_or_void`,
`Fixture.characterData_eq_text_iff`.
-/
import PageQuery.Proofs.Markup.Marks

namespace PageQuery

open ElementTree Markup

namespace Markup

/-- The characters up to the end of an element in which so many others are open. -/
def contentOf : Nat → List MarkupMark → List Char
  | _, [] => []
  | depth, .char c :: rest => c :: contentOf depth rest
  | depth, .opens tag _ :: rest => contentOf (if voidTags.contains tag then depth else depth + 1) rest
  | 0, .closes :: _ => []
  | depth + 1, .closes :: rest => contentOf depth rest

/-- Whether a mark opens the element of that number. -/
def opensAt (number : Nat) : MarkupMark → Bool
  | .opens _ number? => number? == some (numberText number)
  | _ => false

/-- The characters within the first element of that number, if there is one. -/
def characterData? (number : Nat) (cs : List Char) : Option (List Char) :=
  match (marks cs).dropWhile fun m => !opensAt number m with
  | .opens tag _ :: rest => some (if voidTags.contains tag then [] else contentOf 0 rest)
  | _ => none

end Markup

namespace ElementTree

/-! ### What is written of the text -/

mutual

/-- The characters that are written of a tree. -/
def shown : ElementTree → List Char
  | .text s => s.toList
  | .element head content => if voidTags.contains head.tag then [] else shownAll content

def shownAll : List ElementTree → List Char
  | [] => []
  | t :: rest => shown t ++ shownAll rest

end

mutual

/-- **The marks of a tree hold what is written of it**, and leave as many elements open as there were. -/
theorem contentOf_marks {depth number : Nat} {rest : List MarkupMark} : (t : ElementTree) →
    contentOf depth (t.marks number ++ rest) = t.shown ++ contentOf depth rest
  | .text s => by
    rw [marks, shown]
    induction s.toList with
    | nil => rfl
    | cons c cs ih => rw [List.map_cons, List.cons_append, contentOf, ih, List.cons_append]
  | .element head content => by
    rw [marks, shown, List.cons_append, contentOf]
    split
    · rfl
    · rw [List.append_assoc, contentOf_marksAll content, List.singleton_append, contentOf]

theorem contentOf_marksAll {depth number : Nat} {rest : List MarkupMark} : (ts : List ElementTree) →
    contentOf depth (marksAll number ts ++ rest) = shownAll ts ++ contentOf depth rest
  | [] => rfl
  | t :: ts => by
    rw [marksAll, shownAll, List.append_assoc, contentOf_marks t, contentOf_marksAll ts, List.append_assoc]

end

/-- The characters of the texts. -/
def chars (t : ElementTree) : List Char := t.texts.flatMap String.toList

def charsAll (ts : List ElementTree) : List Char := (textsAll ts).flatMap String.toList

@[simp] theorem chars_text (s : String) : (text s).chars = s.toList := by
  rw [chars, texts, List.flatMap_singleton]

@[simp] theorem charsAll_cons (t : ElementTree) (rest : List ElementTree) :
    charsAll (t :: rest) = t.chars ++ charsAll rest := by
  rw [charsAll, textsAll, List.flatMap_append, chars, charsAll]

mutual

theorem shown_sublist : (t : ElementTree) → t.shown.Sublist t.chars
  | .text s => by rw [shown, chars_text]
  | .element head content => by
    rw [shown]
    split
    · exact List.nil_sublist _
    · exact shownAll_sublist content

theorem shownAll_sublist : (ts : List ElementTree) → (shownAll ts).Sublist (charsAll ts)
  | [] => List.nil_sublist _
  | t :: rest => by
    rw [shownAll, charsAll_cons]
    exact (shown_sublist t).append (shownAll_sublist rest)

end

variable {parent? : Option Nat} {number : Nat}

mutual

/-- The elements of a tree without characters have none. -/
theorem chars_placed : ∀ {t : ElementTree} {parent? : Option Nat} {number : Nat}, t.chars = [] →
    ∀ e ∈ placed parent? number t, e.tree.chars = []
  | .text _, _, _, _ => List.forall_mem_nil _
  | .element _ content, _, _, h => List.forall_mem_cons.mpr ⟨h, @charsAll_placed content _ _ h⟩

theorem charsAll_placed : ∀ {ts : List ElementTree} {parent? : Option Nat} {number : Nat}, charsAll ts = [] →
    ∀ e ∈ placedAll parent? number ts, e.tree.chars = []
  | [], _, _, _ => List.forall_mem_nil _
  | t :: rest, _, _, h => by
    rw [charsAll_cons] at h
    obtain ⟨first, others⟩ := List.append_eq_nil_iff.mp h
    exact List.forall_mem_append.mpr ⟨chars_placed first, charsAll_placed others⟩

end

mutual

/-- **All characters are written if and only if elements without content have none.** -/
theorem shown_eq_iff : ∀ {t : ElementTree} {parent? : Option Nat} {number : Nat}, t.shown = t.chars ↔
    ∀ e ∈ placed parent? number t, voidTags.contains e.head.tag = true → e.tree.chars = []
  | .text s, _, _ => by
    rw [shown, chars_text]
    exact iff_of_true rfl (List.forall_mem_nil _)
  | .element head content, parent?, number => by
    rw [shown, placed, List.forall_mem_cons]
    by_cases void : voidTags.contains head.tag = true
    · rw [if_pos void]
      constructor
      · intro none
        have none : charsAll content = [] := none.symm
        exact ⟨fun _ => none, fun e mem _ => charsAll_placed none e mem⟩
      · rintro ⟨none, -⟩
        exact (none void).symm
    · rw [if_neg void]
      have inner := @shownAll_eq_iff content (some number) (number + 1)
      exact ⟨fun same => ⟨fun bare => absurd bare void, inner.mp same⟩, fun h => inner.mpr h.2⟩

theorem shownAll_eq_iff : ∀ {ts : List ElementTree} {parent? : Option Nat} {number : Nat},
    shownAll ts = charsAll ts ↔
      ∀ e ∈ placedAll parent? number ts, voidTags.contains e.head.tag = true → e.tree.chars = []
  | [], _, _ => iff_of_true rfl (List.forall_mem_nil _)
  | t :: rest, parent?, number => by
    rw [shownAll, charsAll_cons, placedAll, List.forall_mem_append, ← shown_eq_iff, ← shownAll_eq_iff]
    constructor
    · intro same
      -- Neither part can make up for what the other lacks.
      have first := (shown_sublist t).length_le
      have others := (shownAll_sublist rest).length_le
      have lengths := congrArg List.length same
      rw [List.length_append, List.length_append] at lengths
      exact List.append_inj same (by omega)
    · rintro ⟨first, others⟩
      rw [first, others]

end

/-! ### Where the marks of an element stand -/

/-- One of the marks opens the element of that number. -/
def Opens (ms : List MarkupMark) (number : Nat) : Prop := ∃ m ∈ ms, opensAt number m = true

@[simp] theorem opensAt_opens {k : Nat} {tag : String} :
    opensAt k (.opens tag (some (numberText number))) = true ↔ k = number := by
  rw [opensAt, beq_iff_eq, Option.some.injEq, numberText_injective.eq_iff, eq_comm]

theorem not_opens_closes {k : Nat} : ¬Opens [.closes] k := by
  rintro ⟨m, mem, opens⟩
  rw [List.mem_singleton.mp mem] at opens
  cases opens

@[simp]
theorem opens_append {a b : List MarkupMark} {k : Nat} : Opens (a ++ b) k ↔ Opens a k ∨ Opens b k := by
  simp only [Opens, List.mem_append, or_and_right, exists_or]

@[simp] theorem opens_cons {m : MarkupMark} {ms : List MarkupMark} {k : Nat} :
    Opens (m :: ms) k ↔ opensAt k m = true ∨ Opens ms k := by
  simp only [Opens, List.mem_cons, or_and_right, exists_or, exists_eq_left]

mutual

/-- The marks of a tree open elements of its numbers alone. -/
theorem bounds_of_opens {k : Nat} : ∀ {t : ElementTree} {number : Nat}, Opens (t.marks number) k →
    number ≤ k ∧ k < number + t.size
  | .text s, number, ⟨m, mem, opens⟩ => by
    rw [marks] at mem
    obtain ⟨c, -, rfl⟩ := List.mem_map.mp mem
    cases opens
  | .element head content, number, h => by
    rw [size]
    rw [marks, opens_cons, opensAt_opens] at h
    rcases h with rfl | h
    · omega
    split at h
    · obtain ⟨m, mem, -⟩ := h
      cases mem
    · rcases opens_append.mp h with h | h
      · have inside := boundsAll_of_opens h
        omega
      · exact absurd h not_opens_closes

theorem boundsAll_of_opens {k : Nat} : ∀ {ts : List ElementTree} {number : Nat}, Opens (marksAll number ts) k →
    number ≤ k ∧ k < number + sizeAll ts
  | [], _, ⟨_, mem, _⟩ => by cases mem
  | t :: rest, number, h => by
    rw [sizeAll]
    rcases opens_append.mp h with h | h
    · have first := bounds_of_opens h
      omega
    · have others := boundsAll_of_opens h
      omega

end

/-- The marks of an element stand among others: before them the elements of lower numbers open, and behind them
those beyond its tree. -/
def WrittenAt (ms : List MarkupMark) (number : Nat) (e : PlacedElement) : Prop :=
  ∃ front behind, ms = front ++ (e.tree.marks number ++ behind) ∧ (∀ k, Opens front k → k < number) ∧
    ∀ k, Opens behind k → number + e.tree.size ≤ k

namespace WrittenAt

variable {ms more : List MarkupMark} {e : PlacedElement} {k : Nat}

theorem whole : WrittenAt (e.tree.marks number) number e :=
  ⟨[], [], by rw [List.append_nil, List.nil_append], nofun, nofun⟩

theorem before (h : WrittenAt ms number e) (low : ∀ k, Opens more k → k < number) :
    WrittenAt (more ++ ms) number e := by
  obtain ⟨front, behind, rfl, lower, higher⟩ := h
  refine ⟨more ++ front, behind, (List.append_assoc ..).symm, fun k opens => ?_, higher⟩
  exact (opens_append.mp opens).elim (low k) (lower k)

theorem behind (h : WrittenAt ms number e) (high : ∀ k, Opens more k → number + e.tree.size ≤ k) :
    WrittenAt (ms ++ more) number e := by
  obtain ⟨front, behind, rfl, lower, higher⟩ := h
  refine ⟨front, behind ++ more, by simp only [List.append_assoc], lower, fun k opens => ?_⟩
  exact (opens_append.mp opens).elim (higher k) (high k)

theorem opens (h : WrittenAt ms number e) : Opens ms number := by
  obtain ⟨front, behind, rfl, -, -⟩ := h
  rw [opens_append, opens_append, PlacedElement.tree, marks, opens_cons, opensAt_opens]
  exact .inr (.inl (.inl rfl))

/-- Nothing within an element without content is written. -/
theorem not_opens (h : WrittenAt ms number e) (void : voidTags.contains e.head.tag = true) (low : number < k)
    (high : k < number + e.tree.size) : ¬Opens ms k := by
  obtain ⟨front, behind, rfl, lower, higher⟩ := h
  intro opens
  rw [opens_append, opens_append, PlacedElement.tree, marks, if_pos void, opens_cons, opensAt_opens] at opens
  rcases opens with opens | (rfl | opens) | opens
  · exact absurd (lower k opens) (by omega)
  · omega
  · obtain ⟨m, mem, -⟩ := opens
    cases mem
  · exact absurd (higher k opens) (by omega)

end WrittenAt

theorem add_size_le_size {t : ElementTree} {j : Nat} {e : PlacedElement}
    (here : (placed parent? number t)[j]? = some e) : j + e.tree.size ≤ t.size := by
  have block := (placed_prefix_drop here).length_le
  obtain ⟨inside, -⟩ := List.getElem?_eq_some_iff.mp here
  rw [length_placed, List.length_drop] at block
  rw [length_placed] at block inside
  omega

/-- The element at a place stands in one without content that is written. -/
def InVoid (elements : List PlacedElement) (ms : List MarkupMark) (number j : Nat) : Prop :=
  ∃ i v, i < j ∧ j < i + v.tree.size ∧ elements[i]? = some v ∧ voidTags.contains v.head.tag = true ∧
    WrittenAt ms (number + i) v

theorem WrittenAt.inside {head : ElementHead} {content : List ElementTree} {i : Nat} {a : PlacedElement}
    (bears : voidTags.contains head.tag = false)
    (h : WrittenAt (marksAll (number + 1) content) (number + 1 + i) a) :
    WrittenAt (marks number (.element head content)) (number + (i + 1)) a := by
  have opening : ∀ k, Opens [.opens head.tag (some (numberText number))] k → k < number + 1 + i := by
    rintro k ⟨m, mem, opens⟩
    rw [List.mem_singleton.mp mem, opensAt_opens] at opens
    omega
  have closing := h.behind (fun k opens => absurd opens not_opens_closes)
  have same : number + (i + 1) = number + 1 + i := by omega
  rw [marks, bears, same]
  exact closing.before opening

mutual

/-- **An element is written, or it stands in one without content that is written.** -/
theorem written_or_void {e : PlacedElement} : ∀ {t : ElementTree} {parent? : Option Nat} {number j : Nat},
    (placed parent? number t)[j]? = some e →
      WrittenAt (t.marks number) (number + j) e ∨ InVoid (placed parent? number t) (t.marks number) number j
  | .element head content, parent?, number, 0, h => by
    obtain rfl : ⟨parent?, head, content⟩ = e := Option.some.inj h
    exact .inl (@WrittenAt.whole number ⟨parent?, head, content⟩)
  | .element head content, parent?, number, j + 1, h => by
    have fits := add_size_le_size h
    have one := size_tree e
    cases void : voidTags.contains head.tag with
    | true =>
      -- The element stands below this one, which is the void one that is written.
      have within : j + 1 < 0 + size (.element head content) := by omega
      exact .inr ⟨0, ⟨parent?, head, content⟩, Nat.succ_pos j, within, rfl, void,
        @WrittenAt.whole number ⟨parent?, head, content⟩⟩
    | false =>
      rcases @allWritten_or_void e content (some number) (number + 1) j h with
        written | ⟨i, v, lt, within, here, bare, written⟩
      · exact .inl (written.inside void)
      · exact .inr ⟨i + 1, v, Nat.succ_lt_succ lt, by omega, here, bare, written.inside void⟩

theorem allWritten_or_void {e : PlacedElement} : ∀ {ts : List ElementTree} {parent? : Option Nat}
    {number j : Nat}, (placedAll parent? number ts)[j]? = some e →
      WrittenAt (marksAll number ts) (number + j) e ∨
        InVoid (placedAll parent? number ts) (marksAll number ts) number j
  | t :: rest, parent?, number, j, h => by
    have length := length_placed parent? number t
    have first {i : Nat} {a : PlacedElement} (here : (placed parent? number t)[i]? = some a)
        (written : WrittenAt (t.marks number) (number + i) a) :
        WrittenAt (marksAll number (t :: rest)) (number + i) a :=
      written.behind fun k opens => by
        have fits := add_size_le_size here
        have beyond := boundsAll_of_opens opens
        omega
    have later {i : Nat} {a : PlacedElement} (written : WrittenAt (marksAll (number + size t) rest) i a)
        (beyond : number + size t ≤ i) : WrittenAt (marksAll number (t :: rest)) i a :=
      written.before fun k opens => by
        have inside := bounds_of_opens opens
        omega
    rw [placedAll] at h ⊢
    by_cases lt : j < size t
    · rw [List.getElem?_append_left (by omega)] at h
      rcases written_or_void h with written | ⟨i, v, below, within, here, bare, written⟩
      · exact .inl (first h written)
      · refine .inr ⟨i, v, below, within, ?_, bare, first here written⟩
        rw [List.getElem?_append_left (by omega)]
        exact here
    · rw [List.getElem?_append_right (by omega), length] at h
      rcases allWritten_or_void h with written | ⟨i, v, below, within, here, bare, written⟩
      · rw [show number + size t + (j - size t) = number + j by omega] at written
        exact .inl (later written (by omega))
      · refine .inr ⟨size t + i, v, by omega, by omega, ?_, bare, ?_⟩
        · rw [List.getElem?_append_right (by omega), length, Nat.add_sub_cancel_left]
          exact here
        · rw [← Nat.add_assoc]
          exact later written (Nat.le_add_right _ _)

end

end ElementTree

/-! ### Text on the page -/

theorem Markup.characterData?_of_written {cs : List Char} {n : Nat} {e : PlacedElement}
    (h : WrittenAt (marks cs) n e) : characterData? n cs = some e.tree.shown := by
  obtain ⟨front, behind, all, lower, -⟩ := h
  have before : ∀ m ∈ front, (!opensAt n m) = true := fun m mem => by
    cases opens : opensAt n m with
    | false => rfl
    | true => exact absurd (lower n ⟨m, mem, opens⟩) (Nat.lt_irrefl n)
  have here : ¬(!opensAt n (.opens e.head.tag (some (numberText n)))) = true := by
    rw [opensAt_opens.mpr rfl]
    decide
  rw [characterData?, all, List.dropWhile_append_of_pos before, PlacedElement.tree, ElementTree.marks,
    List.cons_append, List.dropWhile_cons_of_neg (p := fun m => !opensAt n m) here, shown]
  by_cases void : voidTags.contains e.head.tag = true
  · simp only [if_pos void]
  · simp only [if_neg void]
    rw [List.append_assoc, contentOf_marksAll, List.singleton_append, contentOf, List.append_nil]

theorem Markup.characterData?_of_not_opens {cs : List Char} {n : Nat} (h : ¬Opens (marks cs) n) :
    characterData? n cs = none := by
  have none : (marks cs).dropWhile (fun m => !opensAt n m) = [] := by
    refine List.dropWhile_eq_nil_iff.mpr fun m mem => ?_
    cases opens : opensAt n m with
    | false => rfl
    | true => exact absurd ⟨m, mem, opens⟩ h
  rw [characterData?, none]

namespace Rendering

variable {r : Rendering} {n v : Nat} {e a : PlacedElement}

theorem toList_markup (r : Rendering) : r.page.markup.toList = Markup.document r.document :=
  String.toList_ofList

theorem exists_of_tag {tag : String} (h : r.page.toPage.tag? ⟨n⟩ = some tag) :
    ∃ e, r.page.elements[n]? = some e ∧ e.head.tag = tag := Option.map_eq_some_iff.mp h

theorem toList_text (here : r.page.elements[n]? = some e) : (r.page.toPage.text ⟨n⟩).toList = e.tree.chars := by
  show (((r.page.elements[n]?).map fun e => String.join (textsAll e.content)).getD "").toList = _
  rw [here, Option.map_some, Option.getD_some, String.toList_join]
  rfl

theorem written_or_void (here : r.page.elements[n]? = some e) : WrittenAt (r.document.marks 0) n e ∨
    ∃ i v, i < n ∧ n < i + v.tree.size ∧ r.page.elements[i]? = some v ∧
      voidTags.contains v.head.tag = true ∧ WrittenAt (r.document.marks 0) i v := by
  rw [getElem?_elements] at here
  simpa only [InVoid, Nat.zero_add, getElem?_elements] using ElementTree.written_or_void here

/-- What stands in an element without content is not written, be that itself written or not. -/
theorem not_opens_of_void (here : r.page.elements[v]? = some a) (void : voidTags.contains a.head.tag = true)
    (low : v < n) (high : n < v + a.tree.size) : ¬Opens (r.document.marks 0) n := by
  rcases written_or_void here with written | ⟨i, b, below, within, outer, bare, written⟩
  · exact written.not_opens void low high
  · have ends := add_size_le_of_within outer here (Nat.le_of_lt below) within
    exact written.not_opens bare (by omega) (by omega)

/-- **All characters of an element are written if and only if no element without content within it has any.** -/
theorem shown_eq_iff (here : r.page.elements[n]? = some e) : e.tree.shown = e.tree.chars ↔
    ∀ v a, r.page.elements[v]? = some a → voidTags.contains a.head.tag = true →
      r.page.toPage.isWithin ⟨v⟩ ⟨n⟩ = true → r.page.toPage.text ⟨v⟩ = "" := by
  rw [@ElementTree.shown_eq_iff e.tree e.parent? n]
  have length := length_placed e.parent? n e.tree
  constructor
  · intro bare v a there void within
    obtain ⟨low, high⟩ := (isWithin_iff here).mp within
    obtain ⟨i, rfl⟩ : ∃ i, v = n + i := ⟨v - n, by omega⟩
    have mem : a ∈ placed e.parent? n e.tree := by
      rw [← getElem?_placed here (by omega)] at there
      exact List.mem_of_getElem? there
    exact String.toList_eq_nil_iff.mp ((toList_text there).trans (bare a mem void))
  · intro bare a mem void
    obtain ⟨i, inside, rfl⟩ := List.mem_iff_getElem.mp mem
    have there := getElem?_placed here (i := i) (by omega)
    rw [List.getElem?_eq_getElem inside] at there
    have within := (isWithin_iff (m := n + i) here).mpr (by omega)
    rw [← toList_text there.symm, bare _ _ there.symm void within]
    rfl

end Rendering

/-- **The text of an element is what markup holds within it, if and only if no element without content within it
has text**, and it stands in none itself. -/
theorem Fixture.characterData_eq_text_iff {f : Fixture} {r : Rendering} (h : f.render = .ok r)
    (legible : ∀ e ∈ r.page.elements, ∀ a ∈ e.head.attributes, IsLegibleName a.1) {n : Nat}
    {e : PlacedElement} (here : r.page.elements[n]? = some e) :
    characterData? n r.page.markup.toList = some (r.page.toPage.text ⟨n⟩).toList ↔
      ∀ v a, r.page.elements[v]? = some a → voidTags.contains a.head.tag = true →
        (r.page.toPage.isWithin ⟨v⟩ ⟨n⟩ = true → r.page.toPage.text ⟨v⟩ = "") ∧
          (r.page.toPage.isWithin ⟨n⟩ ⟨v⟩ = true → n = v) := by
  have read : Markup.marks r.page.markup.toList = r.document.marks 0 := by
    rw [Rendering.toList_markup]
    refine marks_document fun head mem => ⟨Fixture.render_tagged h head mem, ?_⟩
    rw [← map_head_placed none 0 r.document] at mem
    obtain ⟨a, placed, rfl⟩ := List.mem_map.mp mem
    exact legible a (List.mem_toArray.mpr placed)
  rcases Rendering.written_or_void here with written | ⟨i, v, below, within, outer, void, written⟩
  · have apart : ∀ v a, r.page.elements[v]? = some a → voidTags.contains a.head.tag = true →
        r.page.toPage.isWithin ⟨n⟩ ⟨v⟩ = true → n = v := by
      intro v a there void within
      obtain ⟨low, high⟩ := (Rendering.isWithin_iff there).mp within
      by_contra other
      exact Rendering.not_opens_of_void there void (by omega) high written.opens
    rw [← read] at written
    rw [characterData?_of_written written, Option.some.injEq, Rendering.toList_text here,
      Rendering.shown_eq_iff here]
    exact ⟨fun bare v a there void => ⟨bare v a there void, apart v a there void⟩,
      fun h v a there void => (h v a there void).1⟩
  · have unread : ¬Opens (Markup.marks r.page.markup.toList) n := read ▸ written.not_opens void below within
    rw [characterData?_of_not_opens unread]
    refine iff_of_false nofun fun h => ?_
    have inside := (Rendering.isWithin_iff outer).mpr ⟨Nat.le_of_lt below, within⟩
    exact absurd ((h i v outer void).2 inside) (Nat.ne_of_gt below)

/-- A paragraph with a line break in its text. -/
def brokenLine : Fixture :=
  ⟨[.element "p" [] (some "1 < 2") none [.element "br" [] none none [], .text " & 3"]], []⟩

theorem Fixture.characterData_eq_text_brokenLine : ∃ r, brokenLine.render = .ok r ∧
    characterData? 3 r.page.markup.toList = some "1 < 2 & 3".toList ∧
    r.page.toPage.text ⟨3⟩ = "1 < 2 & 3" ∧ r.page.toPage.tag? ⟨4⟩ = some "br" ∧
    r.page.toPage.text ⟨4⟩ = "" := by
  obtain ⟨r, rendered⟩ : ∃ r, brokenLine.render = .ok r := exists_ok_of_toBool (by decide +kernel)
  have known : (brokenLine.render.toOption.map fun r =>
      (decide (∀ e ∈ r.page.elements, ∀ a ∈ e.head.attributes, IsLegibleName a.1),
        r.page.toPage.text ⟨3⟩, r.page.toPage.isWithin ⟨4⟩ ⟨3⟩)) = some (true, "1 < 2 & 3", true) := by
    decide +kernel
  have tags : (brokenLine.render.toOption.map fun r => (r.page.toPage.tag? ⟨3⟩, r.page.toPage.tag? ⟨4⟩)) =
      some (some "p", some "br") := by decide +kernel
  have read : (brokenLine.render.toOption.map fun r => characterData? 3 (Markup.document r.document)) =
      some (some "1 < 2 & 3".toList) := by decide +kernel
  rw [rendered] at known tags read
  simp only [Except.toOption, Option.map_some, Option.some.injEq, Prod.mk.injEq, decide_eq_true_eq,
    ← Rendering.toList_markup] at known tags read
  obtain ⟨legible, text, within⟩ := known
  obtain ⟨e, here, -⟩ := Rendering.exists_of_tag tags.1
  obtain ⟨a, there, br⟩ := Rendering.exists_of_tag tags.2
  have void : voidTags.contains a.head.tag = true := br ▸ by decide +kernel
  have same := read.trans (congrArg (fun s => some s.toList) text.symm)
  have bare := (Fixture.characterData_eq_text_iff rendered legible here).mp same
  exact ⟨r, rendered, read, text, tags.2, (bare 4 a there void).1 within⟩

/-- A line break with text. -/
def fullBreak : Fixture := ⟨[.element "br" [] (some "x") none []], []⟩

/-- The text of the line break is text of the page, and its markup holds none. -/
theorem Fixture.text_of_break_not_written : ∃ p, fullBreak.load = .ok p ∧ p.toPage.tag? ⟨3⟩ = some "br" ∧
    p.toPage.text ⟨3⟩ = "x" ∧ characterData? 3 p.markup.toList = some [] ∧
    p.toPage.text ⟨2⟩ = "x" ∧ characterData? 2 p.markup.toList = some [] := by
  obtain ⟨p, loaded⟩ : ∃ p, fullBreak.load = .ok p := exists_ok_of_toBool (by decide +kernel)
  have known : (fullBreak.load.toOption.map fun p => (p.toPage.tag? ⟨3⟩, p.toPage.text ⟨3⟩,
      p.toPage.text ⟨2⟩)) = some (some "br", "x", "x") := by decide +kernel
  have read : (fullBreak.render.toOption.map fun r => (characterData? 3 (Markup.document r.document),
      characterData? 2 (Markup.document r.document))) = some (some [], some []) := by decide +kernel
  obtain ⟨r, rendered, rfl⟩ := Fixture.exists_rendering loaded
  rw [loaded] at known
  rw [rendered] at read
  simp only [Except.toOption, Option.map_some, Option.some.injEq, Prod.mk.injEq, ← Rendering.toList_markup]
    at known read
  exact ⟨r.page, loaded, known.1, known.2.1, read.1, known.2.2, read.2⟩

/-- The name of an attribute that is not legible ends the tag, and the rest of it is text of the markup. -/
example : ((⟨[.element "p" [("a>x", "v")] none none []], []⟩ : Fixture).render.toOption.map fun r =>
    characterData? 3 (Markup.document r.document)) = some (some "x=\"v\">".toList) := by decide +kernel

end PageQuery

/-
# Which trees agree

Markup that is read back is compared element by element in document order: each must carry the next
number and stand in the element with its parent's number. An ordered forest whose numbers grow from
parent to child can be told from the row of these pairs, since what stands in an element has a parent
numbered from that element on, and its next sibling has not. So the comparison finds nothing exactly
where the numbers read make the same ordered forest as those written, and where it finds something,
that is the first element out of place or else the first that is missing.

Key definitions: `NumberedForest`, `DraftElement.Carries`, `MarkupTree.numbersAll`, `ElementTree.numbersAll`,
`MarkupEntry.InPlace`, `Markup.AllInPlace`.
Key theorems: `NumberedForest.rows_injective`, `Markup.firstDifference_eq_none_iff`,
`Markup.disagreement?_spec`, `FixturePage.isOk_ofRendering_iff`.
-/
import PageQuery.Fixture.Page
import PageQuery.Proofs.Number.Decimal

namespace PageQuery

/-! ### Forests by their rows -/

/-- An ordered forest of elements told by their numbers, where an element may have none: an element with
what stands in it, and then its later siblings. -/
inductive NumberedForest where
  | nil
  | cons (number? : Option Nat) (children : NumberedForest) (siblings : NumberedForest)
  deriving DecidableEq, Repr

namespace NumberedForest

/-- The elements in document order, each with its number and its parent's. -/
def rows (parent? : Option Nat) : NumberedForest → List (Option Nat × Option Nat)
  | .nil => []
  | .cons number? children siblings =>
    (number?, parent?) :: (rows number? children ++ rows parent? siblings)

/-- The number of an element is above that of its parent. -/
def Ascends (row : Option Nat × Option Nat) : Prop := ∃ n, row.1 = some n ∧ ∀ q ∈ row.2, q < n

variable {parent? : Option Nat}

theorem head_rows {f : NumberedForest} : ∀ row ∈ (f.rows parent?).head?, row.2 = parent? := by
  cases f with
  | nil => exact nofun
  | cons number? children siblings => rintro row ⟨⟩; rfl

/-- The elements within one have parents numbered from it on. -/
theorem parent_of_mem_rows {f : NumberedForest} {k : Nat} (up : ∀ row ∈ f.rows (some k), Ascends row) :
    ∀ row ∈ f.rows (some k), ∃ q, row.2 = some q ∧ k ≤ q := by
  induction f generalizing k with
  | nil => exact nofun
  | cons number? children siblings inner outer =>
    obtain ⟨⟨n, same, above⟩, up⟩ := List.forall_mem_cons.mp up
    obtain rfl : number? = some n := same
    obtain ⟨upInner, upOuter⟩ := List.forall_mem_append.mp up
    refine List.forall_mem_cons.mpr ⟨⟨k, rfl, Nat.le_refl k⟩, List.forall_mem_append.mpr ⟨?_, outer upOuter⟩⟩
    intro row mem
    obtain ⟨q, parent, low⟩ := inner upInner row mem
    exact ⟨q, parent, Nat.le_trans (Nat.le_of_lt (above k rfl)) low⟩

/-- A list splits in one way into a part of one kind and a rest that begins with the other. -/
theorem append_inj_of_kind {α : Type} {P : α → Prop} {a b a' b' : List α} (h : a ++ b = a' ++ b')
    (ha : ∀ x ∈ a, P x) (ha' : ∀ x ∈ a', P x) (hb : ∀ x ∈ b.head?, ¬ P x) (hb' : ∀ x ∈ b'.head?, ¬ P x) :
    a = a' ∧ b = b' := by
  rcases List.append_eq_append_iff.mp h with ⟨more, rfl, rfl⟩ | ⟨more, rfl, rfl⟩
  · cases more with
    | nil => simp
    | cons x more => exact absurd (ha' x (by simp)) (hb x rfl)
  · cases more with
    | nil => simp
    | cons x more => exact absurd (ha x (by simp)) (hb' x rfl)

/-- **A forest whose numbers grow from parent to child is told by its rows.** -/
theorem rows_injective {f g : NumberedForest} (up : ∀ row ∈ f.rows parent?, Ascends row)
    (same : f.rows parent? = g.rows parent?) : f = g := by
  induction f generalizing parent? g with
  | nil =>
    cases g with
    | nil => rfl
    | cons number? children siblings => cases same
  | cons number? children siblings inner outer =>
    cases g with
    | nil => cases same
    | cons number?' children' siblings' =>
      obtain ⟨first, behind⟩ := List.cons.inj same
      obtain rfl : number? = number?' := congrArg Prod.fst first
      obtain ⟨⟨n, rfl, above⟩, up⟩ := List.forall_mem_cons.mp up
      have up' := up
      rw [behind] at up'
      obtain ⟨upInner, upOuter⟩ := List.forall_mem_append.mp up
      -- A sibling has the parent above, which is no element numbered from `n` on.
      have ends (s : NumberedForest) :
          ∀ row ∈ (s.rows parent?).head?, ¬ ∃ q, row.2 = some q ∧ n ≤ q := by
        rintro row mem ⟨q, parent, low⟩
        rw [head_rows row mem] at parent
        exact absurd (above q parent) (Nat.not_lt.mpr low)
      obtain ⟨within, after⟩ := append_inj_of_kind behind (parent_of_mem_rows upInner)
        (parent_of_mem_rows (List.forall_mem_append.mp up').1) (ends siblings) (ends siblings')
      rw [inner upInner within, outer upOuter after]

end NumberedForest

open NumberedForest

/-! ### The numbers that elements carry -/

namespace DraftElement

/-- An element carries a number if its first attribute for that is the number in decimal. -/
def Carries (e : DraftElement) (n : Nat) : Prop :=
  n < 2 ^ 64 ∧ ∃ before text behind, e.attributes = before ++ (Markup.numberAttribute, text) :: behind ∧
    (∀ a ∈ before, a.1 ≠ Markup.numberAttribute) ∧ IsDecimal text n

/-- The number read from an element is the one that it carries. -/
theorem number?_eq_some_iff {e : DraftElement} {n : Nat} : e.number? = some n ↔ e.Carries n := by
  rw [number?, Option.bind_map, Option.bind_eq_some_iff]
  simp only [List.find?_eq_some_iff_append, Function.comp_apply, indexOf?_eq_some_iff, beq_iff_eq,
    Bool.not_eq_true', beq_eq_false_iff_ne]
  constructor
  · rintro ⟨⟨_, text⟩, ⟨rfl, before, behind, split, others⟩, fits, decimal⟩
    exact ⟨fits, before, text, behind, split, others, decimal⟩
  · rintro ⟨fits, before, text, behind, split, others, decimal⟩
    exact ⟨(Markup.numberAttribute, text), ⟨rfl, before, behind, split, others⟩, fits, decimal⟩

end DraftElement

/-! ### The forests read and written -/

namespace MarkupTree

mutual

/-- The numbers that the elements of a tree carry, before the later siblings. -/
def numbers (siblings : NumberedForest) : MarkupTree → NumberedForest
  | .text _ => siblings
  | .element e content => .cons e.number? (numbersAll content) siblings

/-- The numbers that elements carry, in the ordered forest that they make; text is left out. -/
def numbersAll : List MarkupTree → NumberedForest
  | [] => .nil
  | t :: rest => numbers (numbersAll rest) t

end

mutual

theorem rows_numbers {parent? : Option Nat} (siblings : NumberedForest) : (t : MarkupTree) →
    (numbers siblings t).rows parent? =
      (entries parent? t).map (fun entry => (entry.number?, entry.parent?)) ++ siblings.rows parent?
  | .text _ => rfl
  | .element e content => by
    rw [numbers, rows, rows_numbersAll content, entries]
    rfl

theorem rows_numbersAll {parent? : Option Nat} : (ts : List MarkupTree) →
    (numbersAll ts).rows parent? =
      (entriesAll parent? ts).map fun entry => (entry.number?, entry.parent?)
  | [] => rfl
  | t :: rest => by
    rw [numbersAll, rows_numbers _ t, rows_numbersAll rest, entriesAll, List.map_append]

end

end MarkupTree

namespace ElementTree

mutual

/-- The elements of a tree by their places in document order, before the later siblings. -/
def numbers (number : Nat) (siblings : NumberedForest) : ElementTree → NumberedForest
  | .text _ => siblings
  | .element _ content => .cons (some number) (numbersAll (number + 1) content) siblings

/-- The places of elements in document order, counted from `number`, in the ordered forest that they
make; text is left out. -/
def numbersAll (number : Nat) : List ElementTree → NumberedForest
  | [] => .nil
  | t :: rest => numbers number (numbersAll (number + size t) rest) t

end

/-- The rows of elements numbered from `number`. -/
def rowsFrom (number : Nat) (elements : List PlacedElement) : List (Option Nat × Option Nat) :=
  elements.mapIdx fun i e => (some (number + i), e.parent?)

@[simp] theorem rowsFrom_cons (number : Nat) (e : PlacedElement) (rest : List PlacedElement) :
    rowsFrom number (e :: rest) = (some number, e.parent?) :: rowsFrom (number + 1) rest := by
  rw [rowsFrom, List.mapIdx_cons]
  simp only [rowsFrom, Nat.add_zero, Nat.add_assoc, Nat.add_comm 1]

@[simp] theorem rowsFrom_append (number : Nat) (a b : List PlacedElement) :
    rowsFrom number (a ++ b) = rowsFrom number a ++ rowsFrom (number + a.length) b := by
  rw [rowsFrom, List.mapIdx_append]
  simp only [rowsFrom, Nat.add_assoc, Nat.add_comm a.length]

mutual

theorem rows_numbers {parent? : Option Nat} {number : Nat} (siblings : NumberedForest) : (t : ElementTree) →
    (numbers number siblings t).rows parent? =
      rowsFrom number (placed parent? number t) ++ siblings.rows parent?
  | .text _ => rfl
  | .element head content => by
    rw [numbers, rows, rows_numbersAll content, placed, rowsFrom_cons]
    rfl

theorem rows_numbersAll {parent? : Option Nat} {number : Nat} : (ts : List ElementTree) →
    (numbersAll number ts).rows parent? = rowsFrom number (placedAll parent? number ts)
  | [] => rfl
  | t :: rest => by
    rw [numbersAll, rows_numbers _ t, rows_numbersAll rest, placedAll, rowsFrom_append, length_placed]

end

mutual

theorem ascends_of_mem_numbers {parent? : Option Nat} {number : Nat} (low : ∀ q ∈ parent?, q < number)
    {siblings : NumberedForest} (up : ∀ row ∈ siblings.rows parent?, Ascends row) : (t : ElementTree) →
    ∀ row ∈ (numbers number siblings t).rows parent?, Ascends row
  | .text _ => up
  | .element head content => by
    refine List.forall_mem_cons.mpr ⟨⟨number, rfl, low⟩, List.forall_mem_append.mpr ⟨?_, up⟩⟩
    exact ascends_of_mem_numbersAll (by rintro q ⟨⟩; exact Nat.lt_succ_self number) content

/-- A parent has the smaller number. -/
theorem ascends_of_mem_numbersAll {parent? : Option Nat} {number : Nat} (low : ∀ q ∈ parent?, q < number) :
    (ts : List ElementTree) → ∀ row ∈ (numbersAll number ts).rows parent?, Ascends row
  | [] => nofun
  | t :: rest => ascends_of_mem_numbers low
      (ascends_of_mem_numbersAll (fun q mem => Nat.lt_add_right _ (low q mem)) rest) t

end

end ElementTree

/-! ### The comparison -/

/-- An element as read is in place if it carries the number, and the element written there has the
parent that it has. -/
def MarkupEntry.InPlace (entry : MarkupEntry) (number : Nat) (written? : Option PlacedElement) : Prop :=
  entry.number? = some number ∧ ∃ e, written? = some e ∧ e.parent? = entry.parent?

namespace Markup

variable {written : List PlacedElement} {expected : Nat} {entry : MarkupEntry}

/-- An element in place is passed. -/
theorem firstDifference_cons_of_inPlace {rest : List MarkupEntry}
    (h : entry.InPlace expected written[0]?) : firstDifference written expected (entry :: rest) =
      firstDifference written.tail (expected + 1) rest := by
  obtain ⟨number, e, first, parent⟩ := h
  cases written with
  | nil => cases first
  | cons e' more =>
    obtain rfl : e' = e := Option.some.inj first
    simp [firstDifference, number, parent]

/-- An element out of place is reported. -/
theorem firstDifference_cons_of_not_inPlace {rest : List MarkupEntry}
    (h : ¬ entry.InPlace expected written[0]?) : firstDifference written expected (entry :: rest) =
      some (.reparented entry.tag entry.number?) := by
  unfold firstDifference
  split
  · next number => rw [number]
  · next number same =>
    rw [same]
    split
    · rfl
    · next e more =>
      refine if_neg fun ⟨num, parent⟩ => h ⟨by rw [same, num], e, rfl, parent⟩

/-- **Nothing is reported where the rows are the same.** -/
theorem firstDifference_eq_none_iff : ∀ {read : List MarkupEntry} {written : List PlacedElement}
    {expected : Nat}, firstDifference written expected read = none ↔
      read.map (fun entry => (entry.number?, entry.parent?)) = ElementTree.rowsFrom expected written
  | [], [], _ => iff_of_true rfl rfl
  | [], _ :: _, _ => by
    rw [ElementTree.rowsFrom_cons]
    exact iff_of_false nofun nofun
  | entry :: rest, written, expected => by
    by_cases inPlace : entry.InPlace expected written[0]?
    · rw [firstDifference_cons_of_inPlace inPlace, firstDifference_eq_none_iff]
      obtain ⟨number, e, first, parent⟩ := inPlace
      obtain ⟨more, rfl⟩ := List.head?_eq_some_iff.mp (List.head?_eq_getElem?.trans first)
      rw [ElementTree.rowsFrom_cons, List.map_cons, List.tail_cons, number, parent, List.cons.injEq,
        and_iff_right rfl]
    · rw [firstDifference_cons_of_not_inPlace inPlace]
      refine iff_of_false nofun fun same => inPlace ?_
      cases written with
      | nil => cases same
      | cons e more =>
        rw [ElementTree.rowsFrom_cons] at same
        obtain ⟨number, parent⟩ := Prod.mk.inj (List.cons.inj same).1
        exact ⟨number, e, rfl, parent.symm⟩

/-- The elements of a list that begins at place `expected` are all in place. -/
def AllInPlace (written : List PlacedElement) (expected : Nat) (read : List MarkupEntry) : Prop :=
  ∀ (j : Nat) (entry : MarkupEntry), read[j]? = some entry → entry.InPlace (expected + j) written[j]?

theorem allInPlace_nil : AllInPlace written expected [] := nofun

@[simp] theorem allInPlace_cons {rest : List MarkupEntry} : AllInPlace written expected (entry :: rest) ↔
    entry.InPlace expected written[0]? ∧ AllInPlace written.tail (expected + 1) rest := by
  have shift (j : Nat) : expected + (j + 1) = expected + 1 + j := by omega
  refine ⟨fun h => ⟨h 0 entry rfl, fun j later at? => ?_⟩, ?_⟩
  · rw [← shift, List.getElem?_tail]
    exact h (j + 1) later at?
  · rintro ⟨first, h⟩ (_ | j) later at?
    · cases at?; exact first
    · rw [shift, ← List.getElem?_tail]
      exact h j later at?

/-- Where all that was read is in place, the first element that is missing is reported. -/
theorem firstDifference_of_allInPlace : ∀ {read : List MarkupEntry} {written : List PlacedElement}
    {expected : Nat}, AllInPlace written expected read → firstDifference written expected read =
      (written[read.length]?).map fun e => .reparented e.head.tag (some (expected + read.length))
  | [], [], _, _ => rfl
  | [], _ :: _, _, _ => rfl
  | entry :: rest, written, expected, h => by
    obtain ⟨first, h⟩ := allInPlace_cons.mp h
    rw [firstDifference_cons_of_inPlace first, firstDifference_of_allInPlace h, List.getElem?_tail,
      List.length_cons, Nat.add_assoc, Nat.add_comm 1]

/-- Otherwise the first that is out of place is. -/
theorem firstDifference_of_not_inPlace {back : List MarkupEntry} : ∀ {front : List MarkupEntry}
    {written : List PlacedElement} {expected : Nat}, AllInPlace written expected front →
      ¬ entry.InPlace (expected + front.length) written[front.length]? →
      firstDifference written expected (front ++ entry :: back) = some (.reparented entry.tag entry.number?)
  | [], _, _, _, h => firstDifference_cons_of_not_inPlace h
  | _ :: front, written, expected, inPlace, h => by
    obtain ⟨first, inPlace⟩ := allInPlace_cons.mp inPlace
    rw [List.cons_append, firstDifference_cons_of_inPlace first]
    refine firstDifference_of_not_inPlace inPlace ?_
    rwa [List.getElem?_tail, Nat.add_assoc, Nat.add_comm 1]

theorem exists_not_inPlace : ∀ {read : List MarkupEntry} {written : List PlacedElement} {expected : Nat},
    ¬ AllInPlace written expected read → ∃ front entry back, read = front ++ entry :: back ∧
      AllInPlace written expected front ∧
        ¬ MarkupEntry.InPlace entry (expected + front.length) written[front.length]?
  | [], _, _, h => absurd allInPlace_nil h
  | entry :: rest, written, expected, h => by
    by_cases first : entry.InPlace expected written[0]?
    · have later : ¬ AllInPlace written.tail (expected + 1) rest :=
        fun all => h (allInPlace_cons.mpr ⟨first, all⟩)
      obtain ⟨front, other, back, rfl, all, out⟩ := exists_not_inPlace later
      refine ⟨entry :: front, other, back, rfl, allInPlace_cons.mpr ⟨first, all⟩, ?_⟩
      rwa [List.getElem?_tail, Nat.add_assoc, Nat.add_comm 1] at out
    · exact ⟨[], entry, rest, rfl, allInPlace_nil, first⟩

theorem disagreement?_eq_none_iff (documents : List ElementTree) (trees : List MarkupTree) :
    disagreement? (ElementTree.placedAll none 0 documents) trees = none ↔
      MarkupTree.numbersAll trees = ElementTree.numbersAll 0 documents := by
  rw [disagreement?, firstDifference_eq_none_iff, ← MarkupTree.rows_numbersAll,
    ← ElementTree.rows_numbersAll]
  refine ⟨fun same => (rows_injective ?_ same.symm).symm, fun same => by rw [same]⟩
  exact ElementTree.ascends_of_mem_numbersAll (by rintro q ⟨⟩) documents

/-- **Markup is accepted exactly where the numbers that its elements carry make the same ordered forest
as the places of the elements written.** Otherwise the first element that has no number, has another
than the next or has another parent is named, or else the first element written that is missing. What an
element carries is the number that its attribute is in decimal. -/
theorem disagreement?_spec (documents : List ElementTree) (trees : List MarkupTree) :
    (disagreement? (ElementTree.placedAll none 0 documents) trees = none ↔
      MarkupTree.numbersAll trees = ElementTree.numbersAll 0 documents) ∧
    (∀ e, disagreement? (ElementTree.placedAll none 0 documents) trees = some e ↔
      (∃ front entry back, MarkupTree.entriesAll none trees = front ++ entry :: back ∧
        AllInPlace (ElementTree.placedAll none 0 documents) 0 front ∧
        ¬ entry.InPlace front.length (ElementTree.placedAll none 0 documents)[front.length]? ∧
        e = .reparented entry.tag entry.number?) ∨
      (AllInPlace (ElementTree.placedAll none 0 documents) 0 (MarkupTree.entriesAll none trees) ∧
        ∃ missing, (ElementTree.placedAll none 0 documents)[(MarkupTree.entriesAll none trees).length]? =
          some missing ∧
        e = .reparented missing.head.tag (some (MarkupTree.entriesAll none trees).length))) ∧
    ∀ (d : DraftElement) (n : Nat), d.number? = some n ↔ d.Carries n := by
  refine ⟨disagreement?_eq_none_iff documents trees, fun e => ?_, fun d n => d.number?_eq_some_iff⟩
  generalize ElementTree.placedAll none 0 documents = written
  rw [disagreement?]
  generalize MarkupTree.entriesAll none trees = read
  constructor
  · intro h
    by_cases all : AllInPlace written 0 read
    · rw [firstDifference_of_allInPlace all] at h
      obtain ⟨missing, at?, rfl⟩ := Option.map_eq_some_iff.mp h
      exact .inr ⟨all, missing, at?, by rw [Nat.zero_add]⟩
    · obtain ⟨front, entry, back, rfl, inPlace, out⟩ := exists_not_inPlace all
      rw [firstDifference_of_not_inPlace inPlace out] at h
      rw [Nat.zero_add] at out
      exact .inl ⟨front, entry, back, rfl, inPlace, out, (Option.some.inj h).symm⟩
  · rintro (⟨front, entry, back, rfl, inPlace, out, rfl⟩ | ⟨all, missing, at?, rfl⟩)
    · exact firstDifference_of_not_inPlace inPlace (by rwa [Nat.zero_add])
    · rw [firstDifference_of_allInPlace all, at?, Option.map_some, Nat.zero_add]

/-- A list of two items is accepted as it is read back, with a blank in it and one number spelled out. -/
theorem disagreement?_spec_items :
    let item (text : String) : MarkupTree := .element ⟨.html, "li", [("class", "x"), (numberAttribute, text)]⟩ []
    let written : ElementTree := .element ⟨0, "ul", [], none, none⟩
      [.element ⟨1, "li", [], none, none⟩ [], .element ⟨2, "li", [], none, none⟩ []]
    let read : MarkupTree := .element ⟨.html, "ul", [(numberAttribute, "0")]⟩
      [item "1", .text " ", item "+02"]
    disagreement? (ElementTree.placedAll none 0 [written]) [read] = none ∧
      DraftElement.Carries ⟨.html, "li", [("class", "x"), (numberAttribute, "+02")]⟩ 2 := by
  intro item written read
  obtain ⟨accepted, -, carries⟩ := disagreement?_spec [written] [read]
  exact ⟨accepted.mpr (by decide +kernel), (carries _ 2).mp (by decide +kernel)⟩

end Markup

/-- A rendering makes a page exactly where its markup reads as the elements that it was written from. -/
theorem FixturePage.isOk_ofRendering_iff (r : Rendering) : (∃ p, FixturePage.ofRendering r = .ok p) ↔
    MarkupTree.numbersAll (Markup.read (Markup.document r.document)) =
      ElementTree.numbersAll 0 [r.document] := by
  rw [← Markup.disagreement?_eq_none_iff, ElementTree.placedAll, ElementTree.placedAll, List.append_nil,
    FixturePage.ofRendering]
  split <;> simp [*]

end PageQuery

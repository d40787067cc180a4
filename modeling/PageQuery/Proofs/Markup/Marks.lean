/-
# Markup as marks

Outside of tags markup is a row of marks: where an element opens and under which number, where one closes,
and the characters between. What is written of a tree is read as the marks of the tree. A piece of markup is
read by itself, whatever stands behind it (`Markup.Reads`): a reference is read up to its semicolon, a tag up
to its `>`, for which the names in it may hold none of the characters that end a name, and a value up to
its quote.

Key definitions: `MarkupMark`, `Markup.marks`, `ElementHead.Legible`, `ElementTree.marks`, `Markup.Reads`.
Key theorems: `Markup.attributesAt_attribute`, `Markup.reads_startTag`, `Markup.reads_tree`,
`Markup.marks_document`.
-/
import PageQuery.Proofs.Markup.Forest
import PageQuery.Proofs.Selector.Written

namespace PageQuery

open ElementTree

/-- What is read in one step: an element opens, one closes, or a character stands between. -/
inductive MarkupMark where
  | opens (tag : String) (number? : Option String)
  | closes
  | char (c : Char)
  deriving DecidableEq, Repr

namespace Markup

/-! ### Marks -/

def markOf : MarkupToken → MarkupMark
  | .startTag tag attributes _ => .opens tag (Fields.find? numberAttribute attributes)
  | .endTag _ => .closes
  | .char c => .char c

/-- The marks of ordinary text, at most so many. -/
def marksWithin : Nat → List Char → List MarkupMark
  | 0, _ => []
  | _ + 1, [] => []
  | fuel + 1, c :: rest =>
    let (token?, rest) := nextToken .ordinary c rest
    (token?.map markOf).toList ++ marksWithin fuel rest

/-- The marks of ordinary text. -/
def marks (cs : List Char) : List MarkupMark := marksWithin cs.length cs

/-- A number as it is written. -/
def numberText (number : Nat) : String := String.ofList (natChars number)

theorem numberText_injective : Function.Injective numberText := fun _ _ same =>
  natChars_injective (String.ofList_injective same)

/-! ### Names that can be read -/

/-- What ends the name of an attribute. -/
def endsName (c : Char) : Bool := isTagBlank c || c = '/' || c = '>' || c = '='

/-- The name of an attribute that is read to its end: not empty, and without what ends a name. -/
def IsLegibleName (name : String) : Prop := name.toList ≠ [] ∧ ∀ c ∈ name.toList, endsName c = false

instance (name : String) : Decidable (IsLegibleName name) :=
  @instDecidableAnd _ _ _ (List.decidableBAll _ name.toList)

end Markup

open Markup

/-- An element that is read as it is written: its tag, and each of its attributes up to the value. -/
structure ElementHead.Legible (head : ElementHead) : Prop where
  tagged : head.Tagged
  names : ∀ a ∈ head.attributes, IsLegibleName a.1

namespace ElementTree

mutual

/-- The marks of a tree whose first element has the number. -/
def marks (number : Nat) : ElementTree → List MarkupMark
  | .text s => s.toList.map .char
  | .element head content => .opens head.tag (some (numberText number)) ::
    if voidTags.contains head.tag then [] else marksAll (number + 1) content ++ [.closes]

def marksAll (number : Nat) : List ElementTree → List MarkupMark
  | [] => []
  | t :: rest => marks number t ++ marksAll (number + size t) rest

end

end ElementTree

namespace Markup

/-- What is written reads as these marks, and then what stands behind it is read. -/
def Reads (written : List Char) (ms : List MarkupMark) : Prop :=
  ∀ rest fuel, (written ++ rest).length ≤ fuel →
    ∃ fuel', rest.length ≤ fuel' ∧ marksWithin fuel (written ++ rest) = ms ++ marksWithin fuel' rest

namespace Reads

variable {a b written : List Char} {ms ns : List MarkupMark} {c : Char}

theorem nil : Reads [] [] := fun _ fuel enough => ⟨fuel, enough, rfl⟩

theorem append (ha : Reads a ms) (hb : Reads b ns) : Reads (a ++ b) (ms ++ ns) := by
  intro rest fuel enough
  rw [List.append_assoc] at enough ⊢
  obtain ⟨middle, enough, first⟩ := ha _ fuel enough
  obtain ⟨left, enough, second⟩ := hb rest middle enough
  exact ⟨left, enough, by rw [first, second, List.append_assoc]⟩

theorem scanned (h : ∀ rest, ∃ token?, nextToken .ordinary c (written ++ rest) = (token?, rest) ∧
    (token?.map markOf).toList = ms) : Reads (c :: written) ms := by
  intro rest fuel enough
  rw [List.cons_append, List.length_cons, List.length_append] at enough
  obtain ⟨fuel, rfl⟩ : ∃ k, fuel = k + 1 := ⟨fuel - 1, by omega⟩
  obtain ⟨token?, next, same⟩ := h rest
  refine ⟨fuel, by omega, ?_⟩
  rw [List.cons_append, marksWithin, next, ← same]

/-- A token is one mark. -/
theorem token {m : MarkupMark} (h : ∀ rest, ∃ token,
    nextToken .ordinary c (written ++ rest) = (some token, rest) ∧ markOf token = m) : Reads (c :: written) [m] :=
  scanned fun rest =>
    let ⟨token, next, same⟩ := h rest
    ⟨some token, next, congrArg (fun m => [m]) same⟩

/-- What is passed over is none. -/
theorem passed (h : ∀ rest, nextToken .ordinary c (written ++ rest) = (none, rest)) :
    Reads (c :: written) [] := scanned fun rest => ⟨none, h rest, rfl⟩

theorem marks_eq (h : Reads written ms) : marks written = ms := by
  obtain ⟨left, -, read⟩ := h [] written.length (by rw [List.append_nil])
  rw [List.append_nil] at read
  rw [marks, read]
  cases left <;> rw [marksWithin, List.append_nil]

end Reads

/-! ### Text -/

/-- A character is read back, by itself or as a reference. -/
theorem reads_escapeChar (c : Char) : Reads (escapeChar false c) [.char c] := by
  rcases escapeChar_cases false c with ⟨rfl, e⟩ | ⟨rfl, e⟩ | ⟨rfl, e⟩ | ⟨rfl, e⟩ | ⟨amp, lt, -, -, e⟩ <;> rw [e]
  · exact .token fun _ => ⟨_, rfl, rfl⟩
  · exact .token fun _ => ⟨_, rfl, rfl⟩
  · exact .token fun _ => ⟨_, rfl, rfl⟩
  · exact .token fun _ => ⟨_, rfl, rfl⟩
  · refine .token fun rest => ⟨.char c, ?_, rfl⟩
    rw [List.nil_append, nextToken, reference?_of_ne amp, if_neg lt]

theorem reads_text : ∀ cs : List Char, Reads (escape false cs) (cs.map .char)
  | [] => .nil
  | c :: cs => (reads_escapeChar c).append (reads_text cs)

/-- The declaration in front is passed over. -/
theorem reads_declaration : Reads "<!DOCTYPE html>".toList [] := by
  have letters : "<!DOCTYPE html>".toList =
      '<' :: ['!', 'D', 'O', 'C', 'T', 'Y', 'P', 'E', ' ', 'h', 't', 'm', 'l', '>'] := by decide +kernel
  rw [letters]
  refine .passed fun rest => ?_
  simp [nextToken, reference?, afterOpening, behindClose]

/-! ### Tags -/

/-- A run of characters ends before one that stops it. -/
theorem run_before {p : Char → Bool} {run rest : List Char} {c : Char} (inside : ∀ d ∈ run, p d = true)
    (stops : p c = false) :
    (run ++ c :: rest).takeWhile p = run ∧ (run ++ c :: rest).dropWhile p = c :: rest :=
  Literal.while_apart inside fun _ first => Option.some.inj first ▸ stops

/-- Attributes with one more, which does not count if there is one with its name. -/
def keeping (before : List (String × String)) (name value : String) : List (String × String) :=
  if before.any fun a => a.1 == name then before else (name, value) :: before

theorem exists_keeping (before : List (String × String)) (name value : String) :
    ∃ more, (keeping before name value).reverse = before.reverse ++ more := by
  unfold keeping
  split
  · exact ⟨[], (List.append_nil _).symm⟩
  · exact ⟨[(name, value)], List.reverse_cons⟩

variable {fuel : Nat} {before : List (String × String)} {rest : List Char}

@[simp] theorem attributesAt_close :
    attributesAt (fuel + 1) before ('>' :: rest) = some (before.reverse, false, rest) := rfl

theorem dropBlanks_cons {c : Char} (solid : isTagBlank c = false) :
    (c :: rest).dropWhile isTagBlank = c :: rest := List.dropWhile_cons_of_neg (by rw [solid]; decide)

/-- A value in quotes ends at the next one. -/
theorem valueAt_quoted {value : List Char} (quote : '"' ∉ value) :
    valueAt ('"' :: (value ++ '"' :: rest)) = some (decodeValue value, rest) := by
  have inside : ∀ c ∈ value, decide (c ≠ '"') = true := fun c mem => decide_eq_true fun e => quote (e ▸ mem)
  obtain ⟨taken, left⟩ := run_before inside (decide_eq_false (not_not.mpr rfl))
  rw [valueAt, if_pos (by decide), left, taken]
  decide

/-- **An attribute in quotes is read up to the quote behind its value**, whatever stands behind. -/
theorem attributesAt_attribute {name value : List Char} (solid : name ≠ [])
    (plain : ∀ c ∈ name, endsName c = false) (quote : '"' ∉ value) :
    attributesAt (fuel + 1) before (' ' :: (name ++ '=' :: '"' :: (value ++ '"' :: rest))) =
      attributesAt fuel (keeping before (lowerName name) (decodeValue value)) rest := by
  obtain ⟨c, name, rfl⟩ := List.exists_cons_of_ne_nil solid
  obtain ⟨first, others⟩ := List.forall_mem_cons.mp plain
  have inside : ∀ d ∈ name, (!endsName d) = true := fun d mem => by rw [others d mem]; rfl
  simp only [endsName, Bool.or_eq_false_iff, decide_eq_false_iff_not] at first
  obtain ⟨⟨⟨blank, slash⟩, close⟩, -⟩ := first
  have begins (cs : List Char) : (' ' :: (c :: cs)).dropWhile isTagBlank = c :: cs := by
    rw [List.dropWhile_cons_of_pos (by decide), dropBlanks_cons blank]
  rw [attributesAt, List.cons_append, begins]
  -- The name begins with none of what is read before names, so that only the last branch is left.
  split
  · next h => cases h
  · next h => exact absurd (List.cons.inj h).1 close
  · next h => exact absurd (List.cons.inj h).1 slash
  · next h => exact absurd (List.cons.inj h).1 slash
  · next h =>
    cases h
    have equals : (!endsName '=') = false := by decide
    obtain ⟨named, behind⟩ := run_before inside equals
    unfold endsName at named behind
    dsimp only
    rw [named, behind, dropBlanks_cons rfl]
    simp only [dropBlanks_cons (show isTagBlank '"' = false from rfl), valueAt_quoted quote]
    rfl

/-- Attributes are read one after another up to the end of the tag, behind those read before. -/
theorem attributesAt_attributes : ∀ {attributes before : List (String × String)} {fuel : Nat},
    (∀ a ∈ attributes, IsLegibleName a.1) → attributes.length < fuel →
      ∃ more, attributesAt fuel before (attributes.flatMap (fun a => writeAttribute a.1 a.2) ++ '>' :: rest) =
        some (before.reverse ++ more, false, rest)
  | [], before, fuel + 1, _, _ => ⟨[], by rw [List.append_nil]; rfl⟩
  | (name, value) :: attributes, before, fuel + 1, legible, enough => by
    obtain ⟨⟨solid, plain⟩, legible⟩ := List.forall_mem_cons.mp legible
    obtain ⟨kept, same⟩ :=
      exists_keeping before (lowerName name.toList) (decodeValue (escape true value.toList))
    obtain ⟨more, read⟩ := attributesAt_attributes legible (Nat.lt_of_succ_lt_succ enough)
    refine ⟨kept ++ more, ?_⟩
    rw [List.flatMap_cons, List.append_assoc, writeAttribute_append,
      attributesAt_attribute solid plain (quote_not_mem_escape _), read, same, List.append_assoc]

/-- An attribute takes a character at least. -/
theorem length_le_written (attributes : List (String × String)) :
    attributes.length ≤ (attributes.flatMap fun a => writeAttribute a.1 a.2).length := by
  induction attributes with
  | nil => exact Nat.le_refl _
  | cons a rest ih =>
    rw [List.flatMap_cons, List.length_append, List.length_cons, writeAttribute]
    simp only [List.length_cons, List.length_append]
    omega

theorem attributeValue_digits : ∀ {digits : List Char} {fuel : Nat}, (∀ c ∈ digits, c.isDigit = true) →
    digits.length ≤ fuel → attributeValue fuel digits = digits
  | [], 0, _, _ => rfl
  | [], _ + 1, _, _ => rfl
  | c :: digits, fuel + 1, h, enough => by
    obtain ⟨digit, others⟩ := List.forall_mem_cons.mp h
    have amp : c ≠ '&' := fun e => by rw [e] at digit; cases digit
    have nul : c ≠ '\x00' := fun e => by rw [e] at digit; cases digit
    rw [attributeValue, reference?_of_ne amp, attributeValue_digits others (Nat.le_of_succ_le_succ enough)]
    simp only [withoutNul, if_neg nul]

/-- The number is read back. -/
@[simp] theorem decodeValue_natChars (number : Nat) : decodeValue (natChars number) = numberText number := by
  have digits : ∀ c ∈ natChars number, c.isDigit = true := fun c mem =>
    Nat.isDigit_of_mem_toDigits (by decide) (by decide) mem
  rw [decodeValue, attributeValue_digits digits (Nat.le_refl _), numberText]

theorem quote_not_mem_natChars (number : Nat) : '"' ∉ natChars number := fun mem => by
  have digit := Nat.isDigit_of_mem_toDigits (by decide) (by decide) mem
  cases digit

/-- No character of a tag ends it. -/
theorem not_endsTag_of_isTagChar {c : Char} (h : isTagChar c = true) :
    (isTagBlank c || c = '/' || c = '>') = false := by
  by_contra ends
  simp only [Bool.not_eq_false, isTagBlank, Bool.or_eq_true, decide_eq_true_eq] at ends
  rcases ends with ((((rfl | rfl) | rfl) | rfl) | rfl) | rfl <;> revert h <;> decide

/-- A tag ends at a blank or at the end of its element's opening. -/
theorem tagAt_append {tag : List Char} {d : Char} (plain : ∀ c ∈ tag, isTagChar c = true)
    (ends : d = ' ' ∨ d = '>') : tagAt (tag ++ d :: rest) =
      (attributesAt ((d :: rest).length + 1) [] (d :: rest)).map fun (attributes, selfClosing, more) =>
        (lowerName tag, attributes, selfClosing, more) := by
  have inside : ∀ c ∈ tag, (!(isTagBlank c || c = '/' || c = '>')) = true := fun c mem => by
    rw [not_endsTag_of_isTagChar (plain c mem)]
    rfl
  have stops : (!(isTagBlank d || d = '/' || d = '>')) = false := by
    rcases ends with rfl | rfl <;> decide
  obtain ⟨name, behind⟩ := run_before inside stops
  unfold tagAt
  dsimp only
  rw [name, behind]

theorem lowerName_tag {head : ElementHead} (h : head.Tagged) : lowerName head.tag.toList = head.tag := by
  obtain ⟨-, -, -, -, plain⟩ := h.exists_letter
  have same : (head.tag.toList.map fun c => (withoutNul c).toLower) = head.tag.toList.map id := by
    refine List.map_congr_left fun c mem => ?_
    have nul : c ≠ '\x00' := fun e => absurd (e ▸ plain c mem) (by decide)
    rw [withoutNul, if_neg nul, h.lower_of_mem mem, id]
  rw [lowerName, same, List.map_id, String.ofList_toList]

variable {head : ElementHead}

/-- A tag is read with its name and its attributes. -/
theorem tagAt_of_attributes {d : Char} {text : List Char} {attributes : List (String × String)}
    (h : head.Tagged) (ends : d = ' ' ∨ d = '>')
    (read : attributesAt ((d :: text).length + 1) [] (d :: text) = some (attributes, false, rest)) :
    tagAt (head.tag.toList ++ d :: text) = some (head.tag, attributes, false, rest) := by
  obtain ⟨-, -, -, -, plain⟩ := h.exists_letter
  rw [tagAt_append plain ends, read, Option.map_some, lowerName_tag h]

theorem afterOpening_letter {c : Char} (letter : c.isAlpha = true) :
    afterOpening (c :: rest) = startTagAt (c :: rest) := by
  have other {d : Char} (mark : d.isAlpha = false) : c ≠ d := fun e => by rw [e, mark] at letter; cases letter
  have slash : c ≠ '/' := other (by decide)
  rw [afterOpening, letter, decide_eq_true slash]
  · rfl
  · exact fun _ e => absurd e (other (by decide))
  · exact other (by decide)
  · exact other (by decide)
  · exact fun _ e => absurd e slash
  · exact fun _ _ e => absurd e slash

theorem afterOpening_slash {c : Char} (letter : c.isAlpha = true) :
    afterOpening ('/' :: c :: rest) = endTagAt (c :: rest) := by
  have close : c ≠ '>' := fun e => by rw [e] at letter; cases letter
  rw [afterOpening, if_pos letter]
  exact close

/-- **A start tag is read as the opening of its element**, under the number that it carries. -/
theorem reads_startTag (number : Nat) (h : head.Legible) :
    Reads (startTag number head) [.opens head.tag (some (numberText number))] := by
  obtain ⟨c, more, split, letter, plain⟩ := h.tagged.exists_letter
  have own : ∀ a ∈ head.ownAttributes, IsLegibleName a.1 := fun a mem => h.names a (List.mem_filter.mp mem).1
  have ownName : IsLegibleName numberAttribute := by decide +kernel
  have lower : lowerName numberAttribute.toList = numberAttribute := by decide +kernel
  refine .token fun rest => ?_
  let inside := head.ownAttributes.flatMap (fun a => writeAttribute a.1 a.2) ++ '>' :: rest
  let text := numberAttribute.toList ++ '=' :: '"' :: (natChars number ++ '"' :: inside)
  obtain ⟨others, read⟩ : ∃ others, attributesAt ((' ' :: text).length + 1) [] (' ' :: text) =
      some ((numberAttribute, numberText number) :: others, false, rest) := by
    have enough : head.ownAttributes.length < (' ' :: text).length := by
      have fits := length_le_written head.ownAttributes
      simp only [text, inside, List.length_cons, List.length_append]
      omega
    rw [attributesAt_attribute ownName.1 ownName.2 (quote_not_mem_natChars number), lower, decodeValue_natChars]
    exact attributesAt_attributes own enough
  refine ⟨.startTag head.tag ((numberAttribute, numberText number) :: others) false, ?_, ?_⟩
  · calc nextToken .ordinary '<' (head.tag.toList ++ writeAttributes number head.attributes ++ ['>'] ++ rest)
        = afterOpening (c :: (more ++ ' ' :: text)) := by
          simp only [split, writeAttributes, List.cons_append, List.append_assoc, List.nil_append, inside, text]
          rfl
      _ = startTagAt (head.tag.toList ++ ' ' :: text) := by
          rw [afterOpening_letter letter, split]
          rfl
      _ = (some (.startTag head.tag ((numberAttribute, numberText number) :: others) false), rest) := by
          rw [startTagAt, tagAt_of_attributes h.tagged (.inl rfl) read]
  · rw [markOf, Fields.find?, if_pos rfl]

/-- An end tag is read as the end of an element. -/
theorem reads_endTag (h : head.Tagged) : Reads (endTag head) [.closes] := by
  obtain ⟨c, more, split, letter, -⟩ := h.exists_letter
  refine .token fun rest => ⟨.endTag head.tag, ?_, rfl⟩
  calc nextToken .ordinary '<' ('/' :: head.tag.toList ++ ['>'] ++ rest)
      = afterOpening ('/' :: c :: (more ++ '>' :: rest)) := by
        simp only [split, List.cons_append, List.append_assoc, List.nil_append]
        rfl
    _ = endTagAt (head.tag.toList ++ '>' :: rest) := by rw [afterOpening_slash letter, split]; rfl
    _ = (some (.endTag head.tag), rest) := by
        rw [endTagAt, tagAt_of_attributes h (.inr rfl) attributesAt_close]

/-! ### Trees -/

mutual

/-- **What is written of a tree is read as its marks**, whatever stands behind. -/
theorem reads_tree {number : Nat} : (t : ElementTree) → (∀ e ∈ heads t, e.Legible) →
    Reads (writeTree number t) (t.marks number)
  | .text s, _ => reads_text s.toList
  | .element head content, legible => by
    obtain ⟨own, inner⟩ := List.forall_mem_cons.mp legible
    have opening := reads_startTag number own
    rw [writeTree, ElementTree.marks]
    split
    · exact opening
    · rw [List.append_assoc]
      exact opening.append ((reads_trees content inner).append (reads_endTag own.tagged))

theorem reads_trees {number : Nat} : (ts : List ElementTree) → (∀ e ∈ headsAll ts, e.Legible) →
    Reads (writeTrees number ts) (marksAll number ts)
  | [], _ => .nil
  | t :: rest, legible => by
    obtain ⟨first, others⟩ := List.forall_mem_append.mp legible
    exact (reads_tree t first).append (reads_trees rest others)

end

/-- **The marks of a document are those of its tree.** -/
theorem marks_document {t : ElementTree} (legible : ∀ e ∈ heads t, e.Legible) :
    marks (document t) = t.marks 0 :=
  (reads_declaration.append (reads_tree t legible)).marks_eq

end Markup

end PageQuery

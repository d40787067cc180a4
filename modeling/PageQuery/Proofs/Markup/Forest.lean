/-
# Markup tells its tree

Two documents with the same markup have the same elements, with the same tags, attributes and children, and
the same text between the children. A document that is written is first brought into the form in which
markup can tell it, a forest of characters and elements (`MarkupForest`): adjacent texts become one, and
what is not written of an element is left out. The writer is injective on such forests. What follows a
character, a name, a value or an element in the markup cannot be mistaken for more of it: a reference is read
back as the character it stands for, a name ends at a character that it cannot hold, a value at the first
quote, and an element where an end tag begins.

The attribute that holds the number of an element is left out of its attributes, as it is written anew.

Key definitions: `ArenaNode`, `Rendering.arena`, `MarkupForest`, `MarkupForest.Sound`.
Key theorems: `Markup.escapeChar_inj`, `Markup.writeAttributes_inj`, `Markup.opening_inj`,
`MarkupForest.write_inj`, `Fixture.render_told_by_markup`.
-/
import PageQuery.Proofs.Fixture.Numbering
import PageQuery.Proofs.Fixture.Tags
import PageQuery.Proofs.Markup.Agreement

namespace PageQuery

open ElementTree

/-! ### The nodes of a rendering -/

/-- A node as it can be told from markup: its content is a row of characters and of the numbers of its
children, so that texts next to one another are one. -/
structure ArenaNode where
  parent? : Option Nat
  tag : String
  attributes : List (String × String)
  content : List (Char ⊕ Nat)
  deriving DecidableEq, Repr

/-- The attributes without the number. -/
def ElementHead.ownAttributes (head : ElementHead) : List (String × String) :=
  head.attributes.filter fun a => a.1 ≠ Markup.numberAttribute

/-- The characters and children of some content whose elements are numbered from `number`. -/
def ElementTree.row (number : Nat) : List ElementTree → List (Char ⊕ Nat)
  | [] => []
  | .text s :: rest => s.toList.map .inl ++ row number rest
  | .element head content :: rest => .inr number :: row (number + size (.element head content)) rest

/-- An element with its number as a node. -/
def PlacedElement.node (e : PlacedElement) (number : Nat) : ArenaNode :=
  ⟨e.parent?, e.head.tag, e.head.ownAttributes, row (number + 1) e.content⟩

/-- Elements numbered from `number` as nodes. -/
def nodesFrom (number : Nat) (elements : List PlacedElement) : List ArenaNode :=
  (elements.zipIdx number).map fun (e, n) => e.node n

/-- The nodes in document order. -/
def Rendering.arena (r : Rendering) : List ArenaNode := nodesFrom 0 (r.document.placed none 0)

@[simp] theorem nodesFrom_cons (number : Nat) (e : PlacedElement) (rest : List PlacedElement) :
    nodesFrom number (e :: rest) = e.node number :: nodesFrom (number + 1) rest := rfl

@[simp] theorem nodesFrom_append (number : Nat) (a b : List PlacedElement) :
    nodesFrom number (a ++ b) = nodesFrom number a ++ nodesFrom (number + a.length) b := by
  simp only [nodesFrom, List.zipIdx_append, List.map_append]

/-! ### Forests of characters and elements -/

/-- Characters and elements next to one another, as far as markup tells them. -/
inductive MarkupForest where
  | nil
  | char (c : Char) (rest : MarkupForest)
  | element (tag : String) (attributes : List (String × String)) (content rest : MarkupForest)

namespace Markup

/-- A start tag with these attributes behind the number. -/
def opening (number : Nat) (tag : String) (attributes : List (String × String)) : List Char :=
  '<' :: tag.toList ++ ' ' :: (numberAttribute.toList ++ '=' :: '"' :: natChars number ++ '"' ::
    (attributes.flatMap (fun a => writeAttribute a.1 a.2) ++ ['>']))

theorem startTag_eq (number : Nat) (head : ElementHead) :
    startTag number head = opening number head.tag head.ownAttributes := by
  simp [startTag, opening, writeAttributes, ElementHead.ownAttributes]

end Markup

open Markup

namespace MarkupForest

/-- The number of elements. -/
def size : MarkupForest → Nat
  | nil => 0
  | char _ rest => rest.size
  | element _ _ content rest => 1 + content.size + rest.size

/-- The markup of a forest whose elements are numbered from `number`. -/
def write (number : Nat) : MarkupForest → List Char
  | nil => []
  | char c rest => escapeChar false c ++ write number rest
  | element tag attributes content rest =>
    opening number tag attributes ++
      ((if voidTags.contains tag then []
        else write (number + 1) content ++ '<' :: '/' :: tag.toList ++ ['>']) ++
          write (number + 1 + content.size) rest)

/-- The characters and the numbers of the elements at the top. -/
def row (number : Nat) : MarkupForest → List (Char ⊕ Nat)
  | nil => []
  | char c rest => .inl c :: row number rest
  | element _ _ content rest => .inr number :: row (number + 1 + content.size) rest

/-- The elements as nodes, in document order. -/
def nodes (parent? : Option Nat) (number : Nat) : MarkupForest → List ArenaNode
  | nil => []
  | char _ rest => nodes parent? number rest
  | element tag attributes content rest =>
    ⟨parent?, tag, attributes, row (number + 1) content⟩ ::
      (nodes (some number) (number + 1) content ++ nodes parent? (number + 1 + content.size) rest)

end MarkupForest

namespace ElementTree

mutual

/-- A tree in front of a forest. -/
def forest (rest : MarkupForest) : ElementTree → MarkupForest
  | .text s => s.toList.foldr .char rest
  | .element head content => .element head.tag head.ownAttributes (forestAll content) rest

/-- Trees as a forest. -/
def forestAll : List ElementTree → MarkupForest
  | [] => .nil
  | t :: rest => forest (forestAll rest) t

end

@[simp] theorem size_foldr (rest : MarkupForest) (cs : List Char) :
    (cs.foldr MarkupForest.char rest).size = rest.size := by
  induction cs with
  | nil => rfl
  | cons c cs ih => exact ih

mutual

theorem size_forest (rest : MarkupForest) : (t : ElementTree) → (forest rest t).size = t.size + rest.size
  | .text s => by rw [forest, size_foldr, size, Nat.zero_add]
  | .element head content => by rw [forest, MarkupForest.size, size_forestAll content, size]

theorem size_forestAll : (ts : List ElementTree) → (forestAll ts).size = sizeAll ts
  | [] => rfl
  | t :: rest => by rw [forestAll, size_forest _ t, size_forestAll rest, sizeAll]

end

theorem row_foldr (number : Nat) (rest : MarkupForest) (cs : List Char) :
    (cs.foldr MarkupForest.char rest).row number = cs.map .inl ++ rest.row number := by
  induction cs with
  | nil => rfl
  | cons c cs ih => rw [List.foldr_cons, MarkupForest.row, ih, List.map_cons, List.cons_append]

/-- A forest has the row of the trees. -/
theorem row_forestAll : ∀ (ts : List ElementTree) (number : Nat), (forestAll ts).row number = row number ts
  | [], _ => rfl
  | .text s :: rest, number => by
    rw [forestAll, forest, row_foldr, row_forestAll rest, row]
  | .element head content :: rest, number => by
    rw [forestAll, forest, MarkupForest.row, size_forestAll, row_forestAll rest, row, size, Nat.add_assoc]

theorem nodes_foldr (parent? : Option Nat) (number : Nat) (rest : MarkupForest) (cs : List Char) :
    (cs.foldr MarkupForest.char rest).nodes parent? number = rest.nodes parent? number := by
  induction cs with
  | nil => rfl
  | cons c cs ih => exact ih

mutual

theorem nodes_forest {parent? : Option Nat} {number : Nat} (rest : MarkupForest) : (t : ElementTree) →
    (forest rest t).nodes parent? number =
      nodesFrom number (placed parent? number t) ++ rest.nodes parent? (number + t.size)
  | .text s => by rw [forest, nodes_foldr]; rfl
  | .element head content => by
    rw [forest, MarkupForest.nodes, row_forestAll, nodes_forestAll content, size_forestAll, placed,
      nodesFrom_cons, size, ← Nat.add_assoc]
    rfl

/-- **A forest has the nodes of the trees.** -/
theorem nodes_forestAll {parent? : Option Nat} {number : Nat} : (ts : List ElementTree) →
    (forestAll ts).nodes parent? number = nodesFrom number (placedAll parent? number ts)
  | [] => rfl
  | t :: rest => by
    rw [forestAll, nodes_forest _ t, nodes_forestAll rest, placedAll, nodesFrom_append, length_placed]

end

theorem write_foldr (number : Nat) (rest : MarkupForest) (cs : List Char) :
    (cs.foldr MarkupForest.char rest).write number = escape false cs ++ rest.write number := by
  induction cs with
  | nil => rfl
  | cons c cs ih => rw [List.foldr_cons, MarkupForest.write, ih, escape, escape, List.flatMap_cons,
      List.append_assoc]

mutual

theorem write_forest {number : Nat} (rest : MarkupForest) : (t : ElementTree) →
    (forest rest t).write number = writeTree number t ++ rest.write (number + t.size)
  | .text s => by rw [forest, write_foldr]; rfl
  | .element head content => by
    rw [forest, MarkupForest.write, size_forestAll, writeTree, startTag_eq, size, ← Nat.add_assoc]
    split
    · rw [List.nil_append]
    · rw [write_forestAll content]
      simp [endTag]

/-- **A forest is written as the trees are.** -/
theorem write_forestAll {number : Nat} : (ts : List ElementTree) →
    (forestAll ts).write number = writeTrees number ts
  | [] => rfl
  | t :: rest => by rw [forestAll, write_forest _ t, write_forestAll rest, writeTrees]

end

end ElementTree

/-! ### What is written can be told apart -/

/-- Two texts are the same up to the first place of a character, and behind it. -/
theorem append_cons_inj_of_not_mem {c : Char} {a b x y : List Char} (ha : c ∉ a) (hb : c ∉ b)
    (h : a ++ c :: x = b ++ c :: y) : a = b ∧ x = y := by
  have stops (z : List Char) : ∀ d ∈ (c :: z).head?, ¬d ≠ c :=
    fun d first => not_not.mpr (Option.some.inj first).symm
  obtain ⟨same, behind⟩ := NumberedForest.append_inj_of_kind h (P := (· ≠ c))
    (fun d mem e => ha (e ▸ mem)) (fun d mem e => hb (e ▸ mem)) (stops x) (stops y)
  exact ⟨same, (List.cons.inj behind).2⟩

namespace Markup

/-- The name of an attribute made of letters, digits, hyphens and underscores of ASCII. -/
def IsPlainName (name : String) : Prop := ∀ c ∈ name.toList, c.isAlphanum = true ∨ c = '-' ∨ c = '_'

instance (name : String) : Decidable (IsPlainName name) := List.decidableBAll _ name.toList

theorem IsPlainName.equals_not_mem {name : String} (h : IsPlainName name) : '=' ∉ name.toList := by
  intro mem
  have plain := h _ mem
  revert plain
  decide

theorem escapeChar_cases (inAttribute : Bool) (c : Char) :
    (c = '&' ∧ escapeChar inAttribute c = ['&', 'a', 'm', 'p', ';']) ∨
    (c = '<' ∧ escapeChar inAttribute c = ['&', 'l', 't', ';']) ∨
    (c = '>' ∧ escapeChar inAttribute c = ['&', 'g', 't', ';']) ∨
    (c = '"' ∧ escapeChar inAttribute c = ['&', 'q', 'u', 'o', 't', ';']) ∨
    (c ≠ '&' ∧ c ≠ '<' ∧ c ≠ '>' ∧ (inAttribute = true → c ≠ '"') ∧ escapeChar inAttribute c = [c]) := by
  unfold escapeChar
  by_cases amp : c = '&'
  · subst amp; simp
  by_cases lt : c = '<'
  · subst lt; simp
  by_cases gt : c = '>'
  · subst gt; simp
  by_cases quote : c = '"'
  · subst quote; cases inAttribute <;> simp
  · simp [amp, lt, gt, quote]

theorem reference?_of_ne {inAttribute : Bool} {c : Char} {rest : List Char} (h : c ≠ '&') :
    reference? inAttribute (c :: rest) = none := by
  unfold reference?
  split <;> simp_all

/-- The character that a text begins with, by itself or as a reference, and the rest. -/
def charAt? (inAttribute : Bool) : List Char → Option (Char × List Char)
  | [] => none
  | c :: rest => (reference? inAttribute (c :: rest)).or (some (c, rest))

theorem charAt?_escapeChar (inAttribute : Bool) (c : Char) (rest : List Char) :
    charAt? inAttribute (escapeChar inAttribute c ++ rest) = some (c, rest) := by
  rcases escapeChar_cases inAttribute c with ⟨rfl, e⟩ | ⟨rfl, e⟩ | ⟨rfl, e⟩ | ⟨rfl, e⟩ | ⟨amp, -, -, -, e⟩ <;> rw [e]
  · rfl
  · rfl
  · rfl
  · rfl
  · rw [List.singleton_append, charAt?, reference?_of_ne amp, Option.none_or]

/-- **A character is told from the way it is written**, whatever stands behind. -/
theorem escapeChar_inj {inAttribute : Bool} {a b : Char} {x y : List Char}
    (h : escapeChar inAttribute a ++ x = escapeChar inAttribute b ++ y) : a = b ∧ x = y := by
  have same : some (a, x) = some (b, y) :=
    calc some (a, x) = charAt? inAttribute (escapeChar inAttribute a ++ x) := (charAt?_escapeChar inAttribute a x).symm
      _ = charAt? inAttribute (escapeChar inAttribute b ++ y) := by rw [h]
      _ = some (b, y) := charAt?_escapeChar inAttribute b y
  exact Prod.mk.inj (Option.some.inj same)

/-- What is written for a character begins no tag and ends no value. -/
theorem exists_escapeChar (inAttribute : Bool) (c : Char) : ∃ d rest, escapeChar inAttribute c = d :: rest ∧
    d ≠ '<' ∧ (inAttribute = true → '"' ∉ d :: rest) := by
  rcases escapeChar_cases inAttribute c with ⟨-, e⟩ | ⟨-, e⟩ | ⟨-, e⟩ | ⟨-, e⟩ | ⟨-, lt, -, quote, e⟩
  · exact ⟨_, _, e, by decide, fun _ => by decide⟩
  · exact ⟨_, _, e, by decide, fun _ => by decide⟩
  · exact ⟨_, _, e, by decide, fun _ => by decide⟩
  · exact ⟨_, _, e, by decide, fun _ => by decide⟩
  · exact ⟨c, [], e, lt, fun value mem => quote value (List.mem_singleton.mp mem).symm⟩

theorem escape_inj {inAttribute : Bool} : ∀ {a b : List Char},
    escape inAttribute a = escape inAttribute b → a = b
  | [], [], _ => rfl
  | [], c :: b, h => by
    obtain ⟨d, rest, e, -⟩ := exists_escapeChar inAttribute c
    rw [escape, escape, List.flatMap_cons, e] at h
    cases h
  | c :: a, [], h => by
    obtain ⟨d, rest, e, -⟩ := exists_escapeChar inAttribute c
    rw [escape, escape, List.flatMap_cons, e] at h
    cases h
  | c :: a, d :: b, h => by
    obtain ⟨rfl, behind⟩ := escapeChar_inj (h : escapeChar inAttribute c ++ escape inAttribute a = _)
    rw [escape_inj behind]

theorem quote_not_mem_escape (cs : List Char) : '"' ∉ escape true cs := by
  intro mem
  obtain ⟨c, -, mem⟩ := List.mem_flatMap.mp mem
  obtain ⟨d, rest, e, -, quote⟩ := exists_escapeChar true c
  exact quote rfl (e ▸ mem)

theorem writeAttribute_append (name value : String) (rest : List Char) :
    writeAttribute name value ++ rest =
      ' ' :: (name.toList ++ '=' :: '"' :: (escape true value.toList ++ '"' :: rest)) := by
  simp [writeAttribute]

/-- **Attributes are told from the way they are written**, up to the end of the tag. -/
theorem writeAttributes_inj : ∀ {a b : List (String × String)} {x y : List Char},
    (∀ p ∈ a, IsPlainName p.1) → (∀ p ∈ b, IsPlainName p.1) →
    a.flatMap (fun p => writeAttribute p.1 p.2) ++ '>' :: x =
      b.flatMap (fun p => writeAttribute p.1 p.2) ++ '>' :: y → a = b ∧ x = y
  | [], [], _, _, _, _, h => ⟨rfl, (List.cons.inj h).2⟩
  | [], _ :: _, _, _, _, _, h => absurd (List.cons.inj h).1 (by decide)
  | _ :: _, [], _, _, _, _, h => absurd (List.cons.inj h).1 (by decide)
  | (k, v) :: a, (l, w) :: b, x, y, ha, hb, h => by
    obtain ⟨plain, ha⟩ := List.forall_mem_cons.mp ha
    obtain ⟨plain', hb⟩ := List.forall_mem_cons.mp hb
    rw [List.flatMap_cons, List.flatMap_cons, List.append_assoc, List.append_assoc, writeAttribute_append,
      writeAttribute_append] at h
    obtain ⟨name, h⟩ := append_cons_inj_of_not_mem plain.equals_not_mem plain'.equals_not_mem
      (List.cons.inj h).2
    obtain ⟨value, h⟩ := append_cons_inj_of_not_mem (quote_not_mem_escape _) (quote_not_mem_escape _)
      (List.cons.inj h).2
    obtain ⟨rfl, rfl⟩ := writeAttributes_inj ha hb h
    obtain rfl : k = l := String.toList_inj.mp name
    obtain rfl : v = w := String.toList_inj.mp (escape_inj value)
    exact ⟨rfl, rfl⟩

theorem not_mem_of_isTagName {tag : List Char} (h : Render.isTagName tag = true) {c : Char}
    (other : isTagChar c = false) : c ∉ tag := by
  cases tag with
  | nil => exact List.not_mem_nil
  | cons d rest =>
    obtain ⟨letter, others⟩ := isTagName_cons_iff.mp h
    intro mem
    have plain : isTagChar c = true := by
      rcases List.mem_cons.mp mem with rfl | mem
      · exact isTagChar_of_isAlpha letter
      · exact others c mem
    rw [plain] at other
    cases other

/-- **A start tag is told from the way it is written**, whatever stands behind. -/
theorem opening_inj {number : Nat} {tag tag' : String} {a b : List (String × String)} {x y : List Char}
    (name : Render.isTagName tag.toList = true) (name' : Render.isTagName tag'.toList = true)
    (ha : ∀ p ∈ a, IsPlainName p.1) (hb : ∀ p ∈ b, IsPlainName p.1)
    (h : opening number tag a ++ x = opening number tag' b ++ y) : tag = tag' ∧ a = b ∧ x = y := by
  have split (tag : String) (a : List (String × String)) (x : List Char) :
      opening number tag a ++ x = '<' :: (tag.toList ++ ' ' :: ((numberAttribute.toList ++
        '=' :: '"' :: natChars number ++ ['"']) ++
          (a.flatMap (fun p => writeAttribute p.1 p.2) ++ '>' :: x))) := by
    simp [opening]
  rw [split, split] at h
  obtain ⟨same, h⟩ := append_cons_inj_of_not_mem (not_mem_of_isTagName name (by decide))
    (not_mem_of_isTagName name' (by decide)) (List.cons.inj h).2
  obtain ⟨rfl, rfl⟩ := writeAttributes_inj ha hb (List.append_cancel_left h)
  exact ⟨String.toList_inj.mp same, rfl, rfl⟩

end Markup

/-! ### Forests are told by their markup -/

namespace MarkupForest

/-- Tags and names of attributes are such as may be written, and nothing is in elements without content. -/
def Sound : MarkupForest → Prop
  | nil => True
  | char _ rest => rest.Sound
  | element tag attributes content rest => Render.isTagName tag.toList = true ∧
    (∀ a ∈ attributes, IsPlainName a.1) ∧ (voidTags.contains tag = true → content = nil) ∧
      content.Sound ∧ rest.Sound

/-- An end tag begins here, or the text ends. -/
def EndsHere (cs : List Char) : Prop := cs = [] ∨ ∃ rest, cs = '<' :: '/' :: rest

variable {number : Nat} {r x y : List Char} {c : Char} {tag : String} {attributes : List (String × String)}

theorem EndsHere.ne_escapeChar (h : EndsHere r) : r ≠ escapeChar false c ++ x := by
  obtain ⟨d, rest, e, lt, -⟩ := exists_escapeChar false c
  rw [e]
  rintro rfl
  rcases h with h | ⟨rest, h⟩
  · cases h
  · exact lt (List.cons.inj h).1

theorem EndsHere.ne_opening (h : EndsHere r) (name : Render.isTagName tag.toList = true) :
    r ≠ opening number tag attributes ++ x := by
  rintro rfl
  cases split : tag.toList with
  | nil => rw [split] at name; cases name
  | cons c behind =>
    rw [split] at name
    obtain ⟨letter, -⟩ := isTagName_cons_iff.mp name
    rw [opening, split] at h
    rcases h with h | ⟨rest, h⟩
    · cases h
    · have slash : c = '/' := (List.cons.inj (List.cons.inj h).2).1
      rw [slash] at letter
      revert letter
      decide

theorem escapeChar_ne_opening : escapeChar false c ++ x ≠ opening number tag attributes ++ y := by
  obtain ⟨d, rest, e, lt, -⟩ := exists_escapeChar false c
  rw [e]
  exact fun h => lt (List.cons.inj h).1

/-- **A forest is told from its markup**, where an end tag or nothing stands behind. -/
theorem write_inj : ∀ {f g : MarkupForest} {number : Nat} {r r' : List Char}, f.Sound → g.Sound →
    EndsHere r → EndsHere r' → f.write number ++ r = g.write number ++ r' → f = g ∧ r = r'
  | nil, nil, _, _, _, _, _, _, _, h => ⟨rfl, h⟩
  | nil, char c rest, _, r, r', _, _, ends, _, h => by
    simp only [write, List.nil_append, List.append_assoc] at h
    exact absurd h ends.ne_escapeChar
  | nil, element .., _, r, r', _, sound, ends, _, h => by
    simp only [write, List.nil_append, List.append_assoc] at h
    exact absurd h (ends.ne_opening sound.1)
  | char c rest, nil, _, r, r', _, _, _, ends, h => by
    simp only [write, List.nil_append, List.append_assoc] at h
    exact absurd h.symm ends.ne_escapeChar
  | element .., nil, _, r, r', sound, _, _, ends, h => by
    simp only [write, List.nil_append, List.append_assoc] at h
    exact absurd h.symm (ends.ne_opening sound.1)
  | char c rest, char d rest', number, r, r', sound, sound', ends, ends', h => by
    simp only [write, List.append_assoc] at h
    obtain ⟨rfl, behind⟩ := escapeChar_inj h
    obtain ⟨rfl, rfl⟩ :=
      write_inj (show rest.Sound from sound) (show rest'.Sound from sound') ends ends' behind
    exact ⟨rfl, rfl⟩
  | char .., element .., _, _, _, _, _, _, _, h => by
    simp only [write, List.append_assoc] at h
    exact absurd h escapeChar_ne_opening
  | element .., char .., _, _, _, _, _, _, _, h => by
    simp only [write, List.append_assoc] at h
    exact absurd h.symm escapeChar_ne_opening
  | element tag attributes content rest, element tag' attributes' content' rest', number, r, r',
      ⟨name, plain, void, inner, outer⟩, ⟨name', plain', void', inner', outer'⟩, ends, ends', h => by
    simp only [write, List.append_assoc] at h
    obtain ⟨rfl, rfl, behind⟩ := opening_inj name name' plain plain' h
    by_cases bare : voidTags.contains tag = true
    · obtain rfl := void bare
      obtain rfl := void' bare
      simp only [if_pos bare, List.nil_append] at behind
      obtain ⟨rfl, rfl⟩ := write_inj outer outer' ends ends' behind
      exact ⟨rfl, rfl⟩
    · simp only [if_neg bare, List.append_assoc] at behind
      obtain ⟨rfl, more⟩ := write_inj inner inner' (.inr ⟨_, rfl⟩) (.inr ⟨_, rfl⟩) behind
      have tail := (List.cons.inj (List.cons.inj more).2).2
      have last := (List.cons.inj (List.append_cancel_left tail)).2
      obtain ⟨rfl, rfl⟩ := write_inj outer outer' ends ends' last
      exact ⟨rfl, rfl⟩

/-- There is nothing in a forest without characters and elements. -/
theorem eq_nil_of_row {f : MarkupForest} (h : f.row number = []) : f = nil := by
  cases f with
  | nil => rfl
  | char => cases h
  | element => cases h

end MarkupForest

/-! ### Documents are told by their markup -/

/-- The attributes have plain names, and nothing is in an element that cannot have content. -/
def ArenaNode.IsPlain (n : ArenaNode) : Prop :=
  (∀ a ∈ n.attributes, IsPlainName a.1) ∧ (voidTags.contains n.tag = true → n.content = [])

instance (n : ArenaNode) : Decidable n.IsPlain :=
  inferInstanceAs (Decidable ((∀ a ∈ n.attributes, IsPlainName a.1) ∧ (_ → n.content = [])))

theorem MarkupForest.sound_of_nodes {f : MarkupForest} {parent? : Option Nat} {number : Nat}
    (names : ∀ n ∈ f.nodes parent? number, Render.isTagName n.tag.toList = true)
    (plain : ∀ n ∈ f.nodes parent? number, n.IsPlain) : f.Sound := by
  induction f generalizing parent? number with
  | nil => trivial
  | char c rest ih => exact ih names plain
  | element tag attributes content rest inside behind =>
    obtain ⟨name, names⟩ := List.forall_mem_cons.mp names
    obtain ⟨⟨keys, void⟩, plain⟩ := List.forall_mem_cons.mp plain
    obtain ⟨innerNames, outerNames⟩ := List.forall_mem_append.mp names
    obtain ⟨innerPlain, outerPlain⟩ := List.forall_mem_append.mp plain
    exact ⟨name, keys, fun bare => eq_nil_of_row (void bare), inside innerNames innerPlain,
      behind outerNames outerPlain⟩

namespace Rendering

/-- The document as a forest. -/
def forest (r : Rendering) : MarkupForest := forestAll [r.document]

theorem nodes_forest (r : Rendering) : r.forest.nodes none 0 = r.arena := by
  rw [forest, nodes_forestAll, placedAll, placedAll, List.append_nil, arena]

theorem write_forest (r : Rendering) :
    Markup.document r.document = "<!DOCTYPE html>".toList ++ r.forest.write 0 := by
  have body := @write_forestAll 0 [r.document]
  rw [writeTrees, writeTrees, List.append_nil] at body
  exact congrArg _ body.symm

/-- A node is an element of the document. -/
theorem tag_of_mem_arena {r : Rendering} {n : ArenaNode} (mem : n ∈ r.arena) :
    ∃ head ∈ heads r.document, head.tag = n.tag := by
  obtain ⟨⟨e, number⟩, numbered, rfl⟩ := List.mem_map.mp mem
  have placed := List.fst_mem_of_mem_zipIdx numbered
  rw [← map_head_placed none 0 r.document]
  exact ⟨e.head, List.mem_map_of_mem placed, rfl⟩

end Rendering

/-- **The markup of a document tells its nodes**: their tags, parents and attributes, and in order the
characters and children of each. -/
theorem Fixture.render_told_by_markup {f g : Fixture} {r s : Rendering} (hf : f.render = .ok r)
    (hg : g.render = .ok s) (plain : ∀ n ∈ r.arena, n.IsPlain) (plain' : ∀ n ∈ s.arena, n.IsPlain)
    (same : Markup.document r.document = Markup.document s.document) : r.arena = s.arena := by
  have sound {f : Fixture} {r : Rendering} (h : f.render = .ok r) (plain : ∀ n ∈ r.arena, n.IsPlain) :
      r.forest.Sound := by
    rw [← r.nodes_forest] at plain
    refine MarkupForest.sound_of_nodes (fun n mem => ?_) plain
    rw [r.nodes_forest] at mem
    obtain ⟨head, mem, tag⟩ := Rendering.tag_of_mem_arena mem
    exact tag ▸ (Fixture.render_tagged h head mem).name
  rw [r.write_forest, s.write_forest] at same
  have written := List.append_cancel_left same
  rw [← List.append_nil (r.forest.write 0), ← List.append_nil (s.forest.write 0)] at written
  obtain ⟨forests, -⟩ := MarkupForest.write_inj (sound hf plain) (sound hg plain') (.inl rfl) (.inl rfl) written
  rw [← r.nodes_forest, ← s.nodes_forest, forests]

/-- A paragraph whose text is in two pieces. -/
def torn : Fixture := ⟨[.element "p" [("class", "a\"b")] (some "1 <") none [.text " 2"]], []⟩

/-- The same paragraph, its text torn elsewhere and its tag in upper case. -/
def tornElsewhere : Fixture := ⟨[.element "P" [("class", "a\"b")] none none [.text "1", .text " < 2"]], []⟩

theorem Fixture.render_told_by_markup_torn : ∃ r s, torn.render = .ok r ∧ tornElsewhere.render = .ok s ∧
    r.document.texts = ["1 <", " 2"] ∧ s.document.texts = ["1", " < 2"] ∧
    (∀ n ∈ r.arena, n.IsPlain) ∧ (∀ n ∈ s.arena, n.IsPlain) ∧
    Markup.document r.document = Markup.document s.document ∧ r.arena = s.arena := by
  obtain ⟨r, rendered⟩ : ∃ r, torn.render = .ok r := exists_ok_of_toBool (by decide +kernel)
  obtain ⟨s, rendered'⟩ : ∃ s, tornElsewhere.render = .ok s := exists_ok_of_toBool (by decide +kernel)
  have known : (torn.render.toOption.map fun r =>
      (r.document.texts, decide (∀ n ∈ r.arena, n.IsPlain), Markup.document r.document)) =
        some (["1 <", " 2"], true, ((tornElsewhere.render.toOption.map fun s =>
          Markup.document s.document).getD [])) := by decide +kernel
  have known' : (tornElsewhere.render.toOption.map fun s =>
      (s.document.texts, decide (∀ n ∈ s.arena, n.IsPlain))) = some (["1", " < 2"], true) := by
    decide +kernel
  rw [rendered, rendered'] at known
  rw [rendered'] at known'
  simp only [Except.toOption, Option.map_some, Option.getD_some, Option.some.injEq, Prod.mk.injEq,
    decide_eq_true_eq] at known known'
  obtain ⟨texts, plain, same⟩ := known
  obtain ⟨texts', plain'⟩ := known'
  exact ⟨r, s, rendered, rendered', texts, texts', plain, plain', same,
    Fixture.render_told_by_markup rendered rendered' plain plain' same⟩

end PageQuery

/-
# The tags of rendered elements

Rendering refuses an element whose tag is not a letter followed by letters, digits and hyphens, and writes
letters in lower case. So these are the tags of the elements that it draws, and of those of the document
around them. Adding to an element leaves the tags that are there.

Key definitions: `ElementHead.Tagged`.
Key theorems: `Render.appNode_tagged`, `Render.portals_tagged`, `Fixture.render_tagged`.
-/
import PageQuery.Proofs.Fixture.Rendering
import Mathlib

namespace PageQuery

open ElementTree Render

/-- The tag is one that rendering writes: a letter, and then letters, digits and hyphens, in lower case. -/
structure ElementHead.Tagged (head : ElementHead) : Prop where
  name : isTagName head.tag.toList = true
  lower : head.tag.toList.map Char.toLower = head.tag.toList

/-! ### Tag names -/

/-- The characters of tags. -/
def isTagChar (c : Char) : Bool := c.isAlphanum || c == '-'

theorem isTagChar_of_isAlpha {c : Char} (h : c.isAlpha = true) : isTagChar c = true := by
  simp [isTagChar, Char.isAlphanum, h]

theorem isTagName_cons_iff {c : Char} {rest : List Char} :
    isTagName (c :: rest) = true ↔ c.isAlpha = true ∧ ∀ d ∈ rest, isTagChar d = true := by
  simp only [isTagName, Bool.and_eq_true, List.all_eq_true]
  rfl

/-- A letter in lower case is a letter, and any other character is in lower case. -/
theorem isTagChar_toLower {c : Char} (h : isTagChar c = true) : isTagChar c.toLower = true := by
  by_cases upper : c.isUpper = true
  · have letter : c.toLower.isAlpha = true := by
      rw [Char.isAlpha_toLower_eq_isAlpha, Char.isAlpha, upper, Bool.true_or]
    exact isTagChar_of_isAlpha letter
  · rwa [Char.toLower_eq_of_not_isUpper upper]

theorem isTagName_map_toLower : ∀ {tag : List Char}, isTagName tag = true →
    isTagName (tag.map Char.toLower) = true
  | c :: rest, h => by
    obtain ⟨letter, others⟩ := isTagName_cons_iff.mp h
    refine isTagName_cons_iff.mpr ⟨by rwa [Char.isAlpha_toLower_eq_isAlpha], ?_⟩
    exact List.forall_mem_map.mpr fun d mem => isTagChar_toLower (others d mem)

namespace ElementHead.Tagged

variable {head : ElementHead}

theorem of_lowerTag {tag : String} (h : isTagName tag.toList = true) (same : head.tag = lowerTag tag) :
    head.Tagged where
  name := by
    rw [same, lowerTag, String.toList_ofList]
    exact isTagName_map_toLower h
  lower := by
    rw [same, lowerTag, String.toList_ofList, List.map_map]
    exact List.map_congr_left fun c _ => Char.toLower_toLower_eq_toLower c

/-- The tag begins with a letter and has no other characters than those of tags. -/
theorem exists_letter (h : head.Tagged) : ∃ c rest, head.tag.toList = c :: rest ∧ c.isAlpha = true ∧
    ∀ d ∈ head.tag.toList, isTagChar d = true := by
  have name := h.name
  cases split : head.tag.toList with
  | nil => rw [split] at name; cases name
  | cons c rest =>
    rw [split] at name
    obtain ⟨letter, others⟩ := isTagName_cons_iff.mp name
    exact ⟨c, rest, rfl, letter, List.forall_mem_cons.mpr ⟨isTagChar_of_isAlpha letter, others⟩⟩

theorem lower_of_mem (h : head.Tagged) {c : Char} (mem : c ∈ head.tag.toList) : c.toLower = c := by
  have same : head.tag.toList.map Char.toLower = head.tag.toList.map id := by rw [h.lower, List.map_id]
  exact List.map_inj_left.mp same c mem

end ElementHead.Tagged

/-! ### Rendering -/

namespace Render

variable {s t : RenderState} {trees : List ElementTree}

theorem isTagName_of_checkTag {tag : String} {a : Unit} (h : checkTag tag s = .ok (a, t)) :
    isTagName tag.toList = true := by
  unfold checkTag at h
  split at h
  · assumption
  · cases h

theorem tagged_nothing (bare : headsAll trees = []) : ∀ e ∈ headsAll trees, e.Tagged := by
  rw [bare]
  exact List.forall_mem_nil _

/-- An element whose tag was checked, around what was drawn. -/
theorem tagged_element {head : ElementHead} {text? : Option String} {content : List ElementTree} {tag : String}
    (checked : isTagName tag.toList = true) (same : head.tag = lowerTag tag)
    (inner : ∀ e ∈ headsAll content, e.Tagged) :
    ∀ e ∈ headsAll [.element head (leadingText text? ++ content)], e.Tagged := by
  rw [headsAll, headsAll, List.append_nil, heads, headsAll_leadingText]
  exact List.forall_mem_cons.mpr ⟨.of_lowerTag checked same, inner⟩

theorem tagged_append {more : List ElementTree} (first : ∀ e ∈ headsAll trees, e.Tagged)
    (second : ∀ e ∈ headsAll more, e.Tagged) : ∀ e ∈ headsAll (trees ++ more), e.Tagged := by
  rw [headsAll_append]
  exact List.forall_mem_append.mpr ⟨first, second⟩

mutual

theorem markupNode_tagged : ∀ {node : FixtureNode} {s t : RenderState} {trees : List ElementTree},
    markupNode node s = .ok (trees, t) → ∀ e ∈ headsAll trees, e.Tagged
  | .text _, _, _, _, h => by
    obtain ⟨rfl, rfl⟩ := pure_eq_ok.mp h
    exact tagged_nothing rfl
  | .element .., s, _, _, h => by
    rw [markupNode] at h
    obtain ⟨_, s', checked, h⟩ := bind_eq_ok.mp h
    obtain ⟨n, s₁, -, h⟩ := bind_eq_ok.mp h
    obtain ⟨content, s₂, inner, h⟩ := bind_eq_ok.mp h
    obtain ⟨rfl, rfl⟩ := pure_eq_ok.mp h
    exact tagged_element (isTagName_of_checkTag checked) rfl (markupNodes_tagged inner)
  | .component .., _, _, _, h => by rw [markupNode] at h; cases h
  | .portal .., _, _, _, h => by rw [markupNode] at h; cases h

theorem markupNodes_tagged : ∀ {nodes : List FixtureNode} {s t : RenderState} {trees : List ElementTree},
    markupNodes nodes s = .ok (trees, t) → ∀ e ∈ headsAll trees, e.Tagged
  | [], _, _, _, h => by
    obtain ⟨rfl, rfl⟩ := pure_eq_ok.mp h
    exact tagged_nothing rfl
  | node :: rest, _, _, _, h => by
    rw [markupNodes] at h
    obtain ⟨trees, s₁, first, h⟩ := bind_eq_ok.mp h
    obtain ⟨more, s₂, second, h⟩ := bind_eq_ok.mp h
    obtain ⟨rfl, rfl⟩ := pure_eq_ok.mp h
    exact tagged_append (markupNode_tagged first) (markupNodes_tagged second)

end

mutual

theorem appNode_tagged : ∀ {node : FixtureNode} {owner : InstanceId} {s t : RenderState}
    {trees : List ElementTree}, appNode owner node s = .ok (trees, t) → ∀ e ∈ headsAll trees, e.Tagged
  | .text _, _, _, _, _, h => by
    obtain ⟨rfl, rfl⟩ := pure_eq_ok.mp h
    exact tagged_nothing rfl
  | .element .., _, _, _, _, h => by
    rw [appNode] at h
    obtain ⟨_, s', checked, h⟩ := bind_eq_ok.mp h
    obtain ⟨n, s₁, -, h⟩ := bind_eq_ok.mp h
    obtain ⟨host, s₂, -, h⟩ := bind_eq_ok.mp h
    obtain ⟨content, s₃, inner, h⟩ := bind_eq_ok.mp h
    obtain ⟨rfl, rfl⟩ := pure_eq_ok.mp h
    exact tagged_element (isTagName_of_checkTag checked) rfl (appNodes_tagged inner)
  | .component .., _, _, _, _, h => by
    rw [appNode] at h
    obtain ⟨b?, s₁, -, h⟩ := bind_eq_ok.mp h
    obtain ⟨i, s₂, -, inner⟩ := bind_eq_ok.mp h
    exact appNodes_tagged inner
  | .portal .., _, _, _, _, h => by
    rw [appNode] at h
    obtain ⟨i, s₁, -, h⟩ := bind_eq_ok.mp h
    obtain ⟨_, s₂, -, h⟩ := bind_eq_ok.mp h
    obtain ⟨rfl, rfl⟩ := pure_eq_ok.mp h
    exact tagged_nothing rfl

theorem appNodes_tagged : ∀ {nodes : List FixtureNode} {owner : InstanceId} {s t : RenderState}
    {trees : List ElementTree}, appNodes owner nodes s = .ok (trees, t) → ∀ e ∈ headsAll trees, e.Tagged
  | [], _, _, _, _, h => by
    obtain ⟨rfl, rfl⟩ := pure_eq_ok.mp h
    exact tagged_nothing rfl
  | node :: rest, _, _, _, _, h => by
    rw [appNodes] at h
    obtain ⟨trees, s₁, first, h⟩ := bind_eq_ok.mp h
    obtain ⟨more, s₂, second, h⟩ := bind_eq_ok.mp h
    obtain ⟨rfl, rfl⟩ := pure_eq_ok.mp h
    exact tagged_append (appNode_tagged first) (appNodes_tagged second)

end

/-- The run: whatever portals add, each element of the document goes on to have a tag. -/
theorem portals_tagged {body : Nat} : ∀ {count : Nat} {document result : ElementTree} {s t : RenderState},
    (∀ e ∈ heads document, e.Tagged) → portals body count document s = .ok (result, t) →
    ∀ e ∈ heads result, e.Tagged
  | 0, _, _, _, _, tagged, h => by
    obtain ⟨rfl, rfl⟩ := pure_eq_ok.mp h
    exact tagged
  | count + 1, document, result, s, t, tagged, h => by
    rw [portals] at h
    obtain ⟨portal?, s₁, -, h⟩ := bind_eq_ok.mp h
    cases portal? with
    | none =>
      obtain ⟨rfl, rfl⟩ := pure_eq_ok.mp h
      exact tagged
    | some portal =>
      obtain ⟨n, s₂, -, added⟩ := bind_eq_ok.mp h
      obtain ⟨trees, s₃, inner, others⟩ := bind_eq_ok.mp added
      refine portals_tagged (fun e mem => ?_) others
      rcases (mem_heads_appendTo document).mp mem with mem | ⟨-, mem⟩
      · exact tagged e mem
      · exact appNodes_tagged inner e mem

end Render

/-- **Every element of a rendered document has a tag**, in lower case. -/
theorem Fixture.render_tagged {f : Fixture} {r : Rendering} (h : f.render = .ok r) :
    ∀ e ∈ heads r.document, e.Tagged := by
  unfold render at h
  split at h
  · next document s drawn =>
    cases h
    unfold renderDocument at drawn
    simp only [bind_eq_ok] at drawn
    obtain ⟨html, s₁, -, head, s₂, -, body, s₃, -, markup, s₄, outside, drawn⟩ := drawn
    obtain ⟨mount, s₅, -, key, s₆, -, root, s₇, -, app, s₈, inside, last⟩ := drawn
    refine portals_tagged ?_ last
    have frames : ∀ (serial : Nat) (tag : String) (attributes : List (String × String)),
        tag = lowerTag tag → isTagName tag.toList = true →
          (⟨serial, tag, attributes, none, none⟩ : ElementHead).Tagged :=
      fun _ _ _ lower name => .of_lowerTag name lower
    have mounted : ∀ e ∈ headsAll (markup ++ [frame mount "div" [("id", "root")] app]), e.Tagged := by
      refine tagged_append (markupNodes_tagged outside) ?_
      rw [frame, headsAll, headsAll, List.append_nil, heads]
      exact List.forall_mem_cons.mpr ⟨frames _ _ _ (by decide) (by decide), appNodes_tagged inside⟩
    simp only [frame, heads, headsAll, List.append_nil, List.cons_append, List.nil_append]
    exact List.forall_mem_cons.mpr ⟨frames _ _ _ (by decide) (by decide), List.forall_mem_cons.mpr
      ⟨frames _ _ _ (by decide) (by decide), List.forall_mem_cons.mpr
        ⟨frames _ _ _ (by decide) (by decide), mounted⟩⟩⟩
  · cases h

end PageQuery

/-
# Results nest as deep as queries ask for all

A query for all of its results adds one level of arrays to what it runs on, and no other query adds
any. What comes out may be ragged, since nothing is found from nothing and null stays where it is; but
every handle stands inside as many arrays as there were such queries in the chain, null inside no more,
and no array is nested deeper. The level of a result set is the invariant: one query raises it, a chain
of them adds up.

An anchor is at the level of the result set that a function would see there, so the root and the
handles that a chain starts from are at level 0.

Key definitions: `ResultSet.PartAt`, `ResultSet.IsLevel`, `Query.isPlural`, `Context.chain`.
Key theorems: `ResultSet.IsLevel.depth_le`, `Engine.runQuery_level`, `Engine.normalizeBy_chain_level`,
`Engine.fetchWithin_levels`.
-/
import PageQuery.Proofs.Engine.Chaining

namespace PageQuery

open Run

/-- The query asks for all of its results. -/
def Query.isPlural (q : Query) : Bool := q.multi && q.at?.isNone

/-- Queries one after another, each in what the one before it comes to. -/
def Context.chain : Context → List Query → Context
  | c, [] => c
  | c, q :: rest => chain (.fetcher c (.query q)) rest

/-! ### Levels of result sets -/

namespace ResultSet

/-- The part stands in the result set inside so many arrays. -/
inductive PartAt : Nat → ResultSet → ResultSet → Prop
  | whole (r : ResultSet) : PartAt 0 r r
  | item {level : Nat} {part r : ResultSet} {items : List ResultSet} :
    r ∈ items → PartAt level part r → PartAt (level + 1) part (.array items)

/-- The first leaf, if the arrays along the first items have one. -/
def firstLeaf? : ResultSet → Option ResultSet
  | .array (first :: _) => firstLeaf? first
  | .array [] => none
  | leaf => some leaf

mutual

/-- Handles stand inside so many arrays and null inside no more, and arrays nest no deeper. -/
def IsLevel : ResultSet → Nat → Prop
  | .null, _ => True
  | .nodes _, level => level = 0
  | .components _, level => level = 0
  | .array _, 0 => False
  | .array items, level + 1 => AllLevel items level

def AllLevel : List ResultSet → Nat → Prop
  | [], _ => True
  | r :: rest, level => IsLevel r level ∧ AllLevel rest level

end

@[simp] theorem allLevel_iff {level : Nat} {items : List ResultSet} :
    AllLevel items level ↔ ∀ r ∈ items, r.IsLevel level := by
  induction items with
  | nil => simp [AllLevel]
  | cons r rest ih => rw [AllLevel, ih, List.forall_mem_cons]

/-- So many arrays may stand around the part in a result set at the level. -/
def FitsInside : ResultSet → Nat → Nat → Prop
  | .null, inside, level => inside ≤ level
  | .nodes _, inside, level => inside = level
  | .components _, inside, level => inside = level
  | .array _, inside, level => inside < level

theorem IsLevel.fits : ∀ {r : ResultSet} {level : Nat}, r.IsLevel level → r.FitsInside 0 level
  | .null, _, _ => Nat.zero_le _
  | .nodes _, _, h => h.symm
  | .components _, _, h => h.symm
  | .array _, _ + 1, _ => Nat.succ_pos _

/-- One array more around a part, and around all handles, changes nothing. -/
theorem FitsInside.succ {inside level : Nat} : ∀ {part : ResultSet},
    part.FitsInside inside level → part.FitsInside (inside + 1) (level + 1)
  | .null, h => Nat.succ_le_succ h
  | .nodes _, h => congrArg Nat.succ h
  | .components _, h => congrArg Nat.succ h
  | .array _, h => Nat.succ_lt_succ h

/-- Every part of a result set at a level has as many arrays around it as its kind allows. -/
theorem IsLevel.part {inside : Nat} {part r : ResultSet} (h : PartAt inside part r) :
    ∀ {level : Nat}, r.IsLevel level → part.FitsInside inside level := by
  induction h with
  | whole r => exact IsLevel.fits
  | item mem _ ih =>
    intro level h
    cases level with
    | zero => cases h
    | succ level => exact (ih (allLevel_iff.mp h _ mem)).succ

/-- Arrays nest no deeper than the level along first items. -/
theorem IsLevel.depth_le : ∀ {r : ResultSet} {level : Nat}, r.IsLevel level → r.depth ≤ level
  | .null, _, _ => Nat.zero_le _
  | .nodes _, _, _ => Nat.zero_le _
  | .components _, _, _ => Nat.zero_le _
  | .array [], level + 1, _ => by rw [depth]; omega
  | .array (first :: _), level + 1, h => by
    have below : first.depth ≤ level := h.1.depth_le
    rw [depth]
    omega

/-- And just as deep if a handle stands there. -/
theorem IsLevel.depth_eq : ∀ {r leaf : ResultSet} {level : Nat}, r.IsLevel level →
    r.firstLeaf? = some leaf → leaf.isNull = false → r.depth = level
  | .null, _, _, _, first, found => by cases first; cases found
  | .nodes _, _, _, h, _, _ => h.symm
  | .components _, _, _, h, _, _ => h.symm
  | .array (r :: _), _, level + 1, h, first, found => by
    have below : r.depth = level := h.1.depth_eq first found
    rw [depth, below, Nat.add_comm]

end ResultSet

/-! ### What a query adds -/

namespace Query

/-- The levels that the query adds. -/
def added (q : Query) : Nat := if q.isPlural then 1 else 0

end Query

namespace Engine

variable {setting : Setting} {functions : Functions} {query : Query} {selector : Selector}

theorem isLevel_of_mem_itemsOf (root : NodeId) : ∀ {reached : Reached} {r : ResultSet},
    r ∈ itemsOf root reached → r.IsLevel 0
  | .root, _, h => by cases List.mem_singleton.mp h; rfl
  | .nodes _, _, h => by obtain ⟨_, -, rfl⟩ := List.mem_map.mp h; rfl
  | .components _, _, h => by obtain ⟨_, -, rfl⟩ := List.mem_map.mp h; rfl

/-- What is found at one place is at the level that the query adds. -/
theorem shape_level (query : Query) {items : List ResultSet} (h : ∀ r ∈ items, r.IsLevel 0) :
    (shape query items).IsLevel query.added := by
  have plural : query.isPlural = true ↔ query.multi = true ∧ query.at? = none := by
    rw [Query.isPlural, Bool.and_eq_true, Option.isNone_iff_eq_none]
  unfold Query.added
  rcases shape_cases query items with ⟨all, e⟩ | ⟨one, e⟩
  · rw [if_pos (plural.mpr all), e]
    exact ResultSet.allLevel_iff.mpr h
  · rw [if_neg (mt plural.mp one)]
    rcases e with e | mem
    · exact e ▸ trivial
    · exact h _ mem

theorem runFrom_level (start : Reached) :
    Yields (runFrom setting query selector start) (·.IsLevel query.added) :=
  Yields.of_rest fun _ => Yields.pure (shape_level query fun _ => isLevel_of_mem_itemsOf _)

mutual

/-- **A query raises the level of what it runs on by what it adds.** -/
theorem runQuery_level : ∀ (anchor : Anchor) {level : Nat},
    (anchor.toInput setting.page.root).IsLevel level →
      Yields (runQuery setting query selector anchor) (·.IsLevel (level + query.added))
  | .null, _, _ => Yields.pure trivial
  | .root, _, h => by cases h; rw [Nat.zero_add]; exact runFrom_level _
  | .nodes _, _, h => by cases h; rw [Nat.zero_add]; exact runFrom_level _
  | .components _, _, h => by cases h; rw [Nat.zero_add]; exact runFrom_level _
  | .array items, level + 1, h => by
    rw [Nat.succ_add]
    exact (runQueryEach_level items h).bind fun _ all => Yields.pure all

theorem runQueryEach_level : ∀ (items : List Anchor) {level : Nat},
    ResultSet.AllLevel (Anchor.toEachInput setting.page.root items) level →
      Yields (runQueryEach setting query selector items)
        (ResultSet.AllLevel · (level + query.added))
  | [], _, _ => Yields.pure trivial
  | a :: rest, _, h => (runQuery_level a h.1).bind fun _ first =>
    (runQueryEach_level rest h.2).bind fun _ others => Yields.pure ⟨first, others⟩

end

theorem executeQuery_level (allowComponents : Bool) {anchor : Anchor} {level : Nat}
    (h : (anchor.toInput setting.page.root).IsLevel level) :
    Yields (executeQuery setting allowComponents query anchor) (·.IsLevel (level + query.added)) := by
  by_cases null : anchor = .null
  · subst null
    exact Yields.pure trivial
  · rw [executeQuery_of_ne_null allowComponents query null]
    refine Yields.of_rest fun selector => ?_
    unfold runParsed
    split
    · exact Yields.fail _
    · exact runQuery_level anchor h

/-! ### Chains of queries -/

mutual

/-- A function sees results as they are. -/
theorem toInput_ofResults (root : NodeId) : ∀ r : ResultSet, (Anchor.ofResults r).toInput root = r
  | .null => rfl
  | .nodes _ => rfl
  | .components _ => rfl
  | .array items => by rw [Anchor.ofResults, Anchor.toInput, toEachInput_ofEachResult root items]

theorem toEachInput_ofEachResult (root : NodeId) : ∀ items : List ResultSet,
    Anchor.toEachInput root (Anchor.ofEachResult items) = items
  | [] => rfl
  | r :: rest => by
    rw [Anchor.ofEachResult, Anchor.toEachInput, toInput_ofResults root r,
      toEachInput_ofEachResult root rest]

end

theorem perform_level (allowComponents : Bool) {anchor : Anchor} {level : Nat}
    (h : (anchor.toInput setting.page.root).IsLevel level) :
    Yields (perform setting functions allowComponents (.query query) anchor)
      fun o => ∃ r, o = .results r ∧ r.IsLevel (level + query.added) :=
  (executeQuery_level allowComponents h).bind fun r found => Yields.pure ⟨r, rfl, found⟩

/-- The level of a chain is that of its start and what its queries add. -/
theorem normalizeBy_chain_level {again : Json → Run Anchor} : ∀ (queries : List Query) {start : Context}
    {level : Nat},
    Yields (normalizeBy setting functions again start) (fun a => (a.toInput setting.page.root).IsLevel level) →
      Yields (normalizeBy setting functions again (start.chain queries)) fun a =>
        (a.toInput setting.page.root).IsLevel (level + queries.countP Query.isPlural)
  | [], _, _, h => h
  | q :: rest, start, level, h => by
    have next : Yields (normalizeBy setting functions again (.fetcher start (.query q))) fun a =>
        (a.toInput setting.page.root).IsLevel (level + q.added) := by
      refine h.bind fun a here => (perform_level true here).bind ?_
      rintro _ ⟨r, rfl, found⟩
      refine Yields.pure ?_
      rwa [toInput_ofResults]
    have sum : level + (q :: rest).countP Query.isPlural =
        level + q.added + rest.countP Query.isPlural := by
      rw [List.countP_cons, Query.added]
      omega
    rw [sum]
    exact normalizeBy_chain_level rest next

theorem isLevel_anchorAt (root : NodeId) (reached : Reached) : ((anchorAt reached).toInput root).IsLevel 0 := by
  cases reached <;> rfl

/-- **Arrays nest as deep as the queries of a chain ask for all.** In what a chain from the root or from
handles comes to, every handle stands inside as many arrays as queries ask for all of their results,
null inside no more, and arrays nest no deeper; along first items they nest just as deep if a handle
stands there. -/
theorem fetchWithin_levels (engine : Engine) (limit now : Nat) {start : Context} {reached : Reached}
    (place : start.place? = some reached) (queries : List Query) (last : Query) {o : Outcome}
    (found : (engine.fetchWithin limit now ⟨start.chain queries, .query last⟩).1 = .ok o) :
    let level := (queries ++ [last]).countP Query.isPlural
    ∃ r, o = .results r ∧
      (∀ inside part, ResultSet.PartAt inside part r → part.FitsInside inside level) ∧
      r.depth ≤ level ∧
      ∀ leaf, r.firstLeaf? = some leaf → leaf.isNull = false → r.depth = level := by
  intro level
  have starts : Yields (normalizeBy (engine.settingAt now) engine.functions
      (reread (engine.settingAt now) engine.functions limit) start)
        fun a => (a.toInput engine.page.root).IsLevel 0 := by
    rw [normalizeBy_place place]
    exact Yields.pure (isLevel_anchorAt _ reached)
  have sum : 0 + queries.countP Query.isPlural + last.added = level := by
    simp only [level, List.countP_append, List.countP_singleton, Query.added, Nat.zero_add]
  have run : Yields (resolve (engine.settingAt now) engine.functions limit
      ⟨start.chain queries, .query last⟩) fun o => ∃ r, o = .results r ∧ r.IsLevel level :=
    (normalizeBy_chain_level queries starts).bind fun a here => sum ▸ perform_level _ here
  obtain ⟨r, rfl, there⟩ := run (engine.start now) o found
  exact ⟨r, rfl, fun _ _ part => there.part part, there.depth_le, fun _ => there.depth_eq⟩

/-- The items of the list in each component of its name: an array of one array. -/
theorem fetchWithin_levels_mirror :
    let engine : Engine := { ofPage mirrorPage .default with matcher := Predicate.matches }
    let chain := (Context.root true).chain [.all "@Menu", ⟨"ul", false, none⟩]
    ∃ r, (engine.fetchWithin 0 0 ⟨chain, .query (.all "li")⟩).1 = .ok (.results r) ∧ r.depth = 2 ∧
      ∀ inside part, ResultSet.PartAt inside part r → part.FitsInside inside 2 := by
  intro engine chain
  obtain ⟨o, found⟩ : ∃ o, (engine.fetchWithin 0 0 ⟨chain, .query (.all "li")⟩).1 = .ok o :=
    exists_ok_of_toBool (by decide +kernel)
  have depth : (engine.fetchWithin 0 0 ⟨chain, .query (.all "li")⟩).1.toOption.map
      (fun o => o.casesOn ResultSet.depth fun _ => 0) = some 2 := by decide +kernel
  obtain ⟨r, rfl, parts, -, -⟩ := fetchWithin_levels engine 0 0 rfl
    [.all "@Menu", ⟨"ul", false, none⟩] (.all "li") found
  rw [found] at depth
  exact ⟨r, found, Option.some.inj depth, parts⟩

end Engine

end PageQuery

/-
# One selector and two in a chain

A selector can be cut before or behind a component segment into two, to be run one after the other: the
second then runs in each result of the first alone. What it finds there is, all together, what the
whole selector finds, and the chain fails just when the whole does. The whole finds nothing twice; the
chain may.

Where no component segment stands at the cut this is false, since the structural segments that meet
there are searched as one.

Key definitions: `Context.place?`, `Query.all`, `Engine.RowsFrom`.
Key theorems: `Engine.outcome_resolve_at`, `Engine.outcome_resolve_chain`, `Engine.fetchWithin_cut`.
-/
import PageQuery.Proofs.Engine.ArrayContext
import PageQuery.Proofs.Engine.Steps
import PageQuery.Proofs.Selector.Concatenation

namespace PageQuery

/-- Where a context is, if it is the root or a list of handles. -/
def Context.place? : Context → Option Reached
  | .root true => some .root
  | .node n => some (.nodes [n])
  | .nodes ns => some (.nodes ns)
  | .components is => some (.components is)
  | _ => none

/-- The query for all that a selector finds. -/
def Query.all (selector : String) : Query := ⟨selector, true, none⟩

open Run

namespace Engine

/-- The anchor at what was reached. -/
def anchorAt : Reached → Anchor
  | .root => .root
  | .nodes nodes => .nodes nodes
  | .components components => .components components

/-- What was reached as a result. -/
def resultAt (root : NodeId) : Reached → ResultSet
  | .root => .node root
  | .nodes nodes => .nodes nodes
  | .components components => .components components

theorem itemsOf_eq (root : NodeId) : ∀ reached : Reached,
    itemsOf root reached = (singles reached).map (resultAt root)
  | .root => rfl
  | .nodes nodes => by simp [itemsOf, singles, resultAt, ResultSet.node]
  | .components components => by simp [itemsOf, singles, resultAt, ResultSet.component]

@[simp]
theorem ofEachResult_eq (items : List ResultSet) : Anchor.ofEachResult items = items.map Anchor.ofResults := by
  induction items with
  | nil => rfl
  | cons r rest ih => rw [Anchor.ofEachResult, ih]; rfl

@[simp] theorem leavesOfAll_eq (items : List ResultSet) :
    ResultSet.leavesOfAll items = items.flatMap ResultSet.leaves := by
  induction items with
  | nil => rfl
  | cons r rest ih => rw [ResultSet.leavesOfAll, ih]; rfl

/-- What was reached is found one by one. -/
@[simp] theorem leaves_itemsOf (root : NodeId) (reached : Reached) :
    (ResultSet.array (itemsOf root reached)).leaves = itemsOf root reached := by
  have leaf : ∀ one : Reached, (resultAt root one).leaves = [resultAt root one] := fun one => by
    cases one <;> rfl
  rw [ResultSet.leaves, leavesOfAll_eq, itemsOf_eq, List.flatMap_map]
  simp only [leaf]
  exact List.map_eq_flatMap.symm

/-- Each row is all that the segments find from one of the places. -/
def RowsFrom (page : Page) (matcher : PropertyMatcher) (segments : List Segment) :
    List Reached → List ResultSet → Prop :=
  List.Forall₂ fun one row => ∃ next, leadAll page matcher segments one = .ok next ∧
    row = .array (itemsOf page.root next)

/-- There are rows exactly when the segments lead on from each place. -/
theorem exists_rowsFrom_iff {page : Page} {matcher : PropertyMatcher} {segments : List Segment}
    {places : List Reached} : (∃ rows, RowsFrom page matcher segments places rows) ↔
      ∀ one ∈ places, ∃ next, leadAll page matcher segments one = .ok next := by
  unfold RowsFrom
  rw [exists_forall₂_iff]
  refine forall₂_congr fun one _ => ?_
  constructor
  · rintro ⟨_, next, e, -⟩
    exact ⟨next, e⟩
  · rintro ⟨next, e⟩
    exact ⟨_, next, e, rfl⟩

variable {setting : Setting} {functions : Functions} {selector : Selector} {context : Context}
  {start : Reached}

@[simp]
theorem shape_all (text : String) (items : List ResultSet) : shape (.all text) items = .array items := rfl

theorem normalizeBy_place {again : Json → Run Anchor} (place : context.place? = some start) :
    normalizeBy setting functions again context = pure (anchorAt start) := by
  unfold Context.place? at place
  split at place <;> cases place <;> rfl

theorem anchorAt_ne_null (reached : Reached) : anchorAt reached ≠ .null := by
  cases reached <;> exact Anchor.noConfusion

/-- A context at a place does not come to null. -/
theorem ne_null_of_place {again : Json → Run Anchor} (place : context.place? = some start) (a : Anchor)
    (e : outcome (normalizeBy setting functions again context) = .ok a) : a ≠ .null := by
  rw [normalizeBy_place place] at e
  exact Except.ok.inj e ▸ anchorAt_ne_null start

theorem outcome_runQuery_at (query : Query) (reached : Reached) :
    outcome (runQuery setting query selector (anchorAt reached)) =
      ((leadAll setting.page setting.matcher selector.segments reached).mapError .error).map
        fun next => shape query (itemsOf setting.page.root next) := by
  rw [← outcome_runSegments]
  cases reached with
  | root => exact outcome_map _ (runSegments_settles selector.segments _)
  | nodes _ => exact outcome_map _ (runSegments_settles selector.segments _)
  | components _ => exact outcome_map _ (runSegments_settles selector.segments _)

/-- What a query gives is read off where its segments lead. -/
theorem outcome_resolve_at (settled : functions.Settled) (query : Query)
    (parsed : Selector.parse query.selector = .ok selector)
    (fits : refusal? setting.config.allowComponentResults query selector = none)
    (place : context.place? = some start) (limit : Nat) {o : Outcome} :
    outcome (resolve setting functions limit ⟨context, .query query⟩) = .ok o ↔
      ∃ next, leadAll setting.page setting.matcher selector.segments start = .ok next ∧
        o = .results (shape query (itemsOf setting.page.root next)) := by
  rw [outcome_resolve_query settled parsed fits, normalizeBy_place place]
  constructor
  · rintro ⟨r, rfl, a, e, run⟩
    obtain rfl : anchorAt start = a := Except.ok.inj e
    rw [outcome_runQuery_at, map_ok_iff] at run
    obtain ⟨next, e, rfl⟩ := run
    exact ⟨next, mapError_ok_iff.mp e, rfl⟩
  · rintro ⟨next, e, rfl⟩
    refine ⟨_, rfl, _, rfl, ?_⟩
    rw [outcome_runQuery_at, map_ok_iff]
    exact ⟨next, mapError_ok_iff.mpr e, rfl⟩

/-- What was reached away from the root is anchored place by place. -/
theorem anchors_of_items (root : NodeId) {reached : Reached} (away : reached ≠ .root) :
    Anchor.ofResults (.array (itemsOf root reached)) = .array ((singles reached).map anchorAt) := by
  rw [Anchor.ofResults, ofEachResult_eq, itemsOf_eq, List.map_map]
  refine congrArg Anchor.array (List.map_congr_left fun one h => ?_)
  have here := ne_root_of_mem away h
  cases one with
  | root => exact absurd rfl here
  | nodes _ => rfl
  | components _ => rfl

/-- A query for all of its results gives a row for each place. -/
theorem outcome_runQuery_rows (text : String) {reached : Reached} (away : reached ≠ .root)
    {r : ResultSet} :
    outcome (runQuery setting (Query.all text) selector
        (.ofResults (.array (itemsOf setting.page.root reached)))) = .ok r ↔
      ∃ rows, RowsFrom setting.page setting.matcher selector.segments (singles reached) rows ∧
        r = .array rows := by
  rw [anchors_of_items _ away, outcome_runQuery_array, map_ok_iff]
  simp only [each_ok_iff, List.forall₂_map_left_iff, outcome_runQuery_at, shape_all, map_ok_iff,
    mapError_ok_iff]
  constructor
  · rintro ⟨rows, h, rfl⟩
    refine ⟨rows, h.imp ?_, rfl⟩
    rintro _ _ ⟨next, e, row⟩
    exact ⟨next, e, row.symm⟩
  · rintro ⟨rows, h, rfl⟩
    refine ⟨rows, h.imp ?_, rfl⟩
    rintro _ _ ⟨next, e, row⟩
    exact ⟨next, e, row.symm⟩

/-- All that a selector finds, as the context of what follows. -/
theorem outcome_normalizeBy_all (settled : functions.Settled) {text : String}
    (parsed : Selector.parse text = .ok selector) (place : context.place? = some start) {limit : Nat}
    {a : Anchor} :
    outcome (normalizeBy setting functions (reread setting functions limit)
        (.fetcher context (.query (Query.all text)))) = .ok a ↔
      ∃ next, leadAll setting.page setting.matcher selector.segments start = .ok next ∧
        a = .ofResults (.array (itemsOf setting.page.root next)) := by
  have free : refusal? true (Query.all text) selector = none := refusal?_eq_none (Or.inl rfl) (Or.inl rfl)
  rw [outcome_normalizeBy_fetcher settled (reread_settles settled limit), normalizeBy_place place]
  show (outcome (perform setting functions true (.query (Query.all text)) (anchorAt start))).bind _ = _ ↔ _
  rw [outcome_perform_query parsed free, outcome_runQuery_at, bind_ok_iff]
  simp only [shape_all, map_ok_iff, mapError_ok_iff]
  constructor
  · rintro ⟨o, ⟨r, ⟨next, e, rfl⟩, rfl⟩, e'⟩
    exact ⟨next, e, (Except.ok.inj e').symm⟩
  · rintro ⟨next, e, rfl⟩
    exact ⟨_, ⟨_, ⟨next, e, rfl⟩, rfl⟩, rfl⟩

/-- The second query of a chain runs in each of what the first one leads to. -/
theorem outcome_resolve_chain (settled : functions.Settled) {first second : String} {s t : Selector}
    (hs : Selector.parse first = .ok s) (ht : Selector.parse second = .ok t)
    (fits : refusal? setting.config.allowComponentResults (Query.all second) t = none)
    (place : context.place? = some start) (limit : Nat) {o : Outcome} :
    outcome (resolve setting functions limit
        ⟨.fetcher context (.query (Query.all first)), .query (Query.all second)⟩) = .ok o ↔
      ∃ middle rows, leadAll setting.page setting.matcher s.segments start = .ok middle ∧
        RowsFrom setting.page setting.matcher t.segments (singles middle) rows ∧
        o = .results (.array rows) := by
  rw [outcome_resolve_query settled ht fits]
  simp only [outcome_normalizeBy_all settled hs place]
  have away := fun {middle} e => leadAll_ne_root (Selector.segments_ne_nil hs)
    (e : leadAll setting.page setting.matcher s.segments start = .ok middle)
  constructor
  · rintro ⟨r, rfl, a, ⟨middle, e, rfl⟩, run⟩
    obtain ⟨rows, all, rfl⟩ := (outcome_runQuery_rows second (away e)).mp run
    exact ⟨middle, rows, e, all, rfl⟩
  · rintro ⟨middle, rows, e, all, rfl⟩
    exact ⟨_, rfl, _, ⟨middle, e, rfl⟩, (outcome_runQuery_rows second (away e)).mpr ⟨rows, all, rfl⟩⟩

/-- A query that is refused fails wherever its context leads, unless that is null. -/
theorem outcome_resolve_refused (settled : functions.Settled) (query : Query)
    (parsed : Selector.parse query.selector = .ok selector) {e : QueryError}
    (refused : refusal? setting.config.allowComponentResults query selector = some e)
    (limit : Nat) {context : Context} (some : ∀ a, outcome (normalizeBy setting functions
      (reread setting functions limit) context) = .ok a → a ≠ .null) {o : Outcome} :
    outcome (resolve setting functions limit ⟨context, .query query⟩) ≠ .ok o := by
  intro h
  rw [outcome_resolve settled, bind_ok_iff] at h
  obtain ⟨a, e', h⟩ := h
  rw [outcome_perform_execute, outcome_executeQuery _ _ (some a e')] at h
  obtain ⟨r, h, -⟩ := map_ok_iff.mp h
  rw [parsed, bind_ok_iff] at h
  obtain ⟨s, e'', h⟩ := h
  obtain rfl : selector = s := Except.ok.inj e''
  unfold runParsed at h
  rw [refused] at h
  cases h

/-! ### The cut -/

theorem endsInComponent_append (source : String) (a : List Segment) {t : Selector}
    (some : t.segments ≠ []) :
    (⟨source, a ++ t.segments⟩ : Selector).endsInComponent = t.endsInComponent := by
  unfold Selector.endsInComponent
  rw [List.getLast?_append_of_ne_nil _ some]

/-- The cut stands before or behind a component segment. -/
def CutsAtComponent (s t : Selector) : Prop := s.endsInComponent = true ∨ t.startsInComponent = true

/-- The selector before the cut, a blank and the selector behind it have the segments of both. -/
theorem parse_cut {first second : String} {s t : Selector} (hs : Selector.parse first = .ok s)
    (ht : Selector.parse second = .ok t) (free : Selector.endsInEscape first = false)
    (cut : CutsAtComponent s t) :
    Selector.parse (first ++ " " ++ second) = .ok ⟨first ++ " " ++ second, s.segments ++ t.segments⟩ := by
  have joint : s.segments.getLast?.any Segment.isComponent = true ∨
      t.segments.head?.any Segment.isComponent = true := by
    refine cut.imp_left fun h => ?_
    unfold Selector.endsInComponent at h
    cases e : s.segments.getLast? with
    | none => rw [e] at h; cases h
    | some segment => rw [e] at h; exact h
  have blank : ∀ c ∈ " ".toList, isBlankChar c = true := by
    intro c hc
    have lone : c = ' ' := by simpa using hc
    rw [lone]
    decide
  rw [Selector.parse_append hs ht free (by decide) blank, Selector.splice_eq_append joint]

theorem refusal?_all (allowComponents : Bool) (text : String) (s : Selector) :
    refusal? allowComponents (Query.all text) s =
      if !allowComponents && s.endsInComponent then some (.componentResult text) else none := by
  unfold refusal?
  split <;> rfl

/-- What is found away from the root is found once if it is reached once. -/
theorem itemsOf_nodup (root : NodeId) {reached : Reached} (away : reached ≠ .root)
    (distinct : (singles reached).Nodup) : (itemsOf root reached).Nodup := by
  rw [itemsOf_eq]
  refine distinct.map_on fun a ha b hb e => ?_
  have ha := ne_root_of_mem away ha
  have hb := ne_root_of_mem away hb
  cases a <;> cases b <;> simp_all [resultAt]

/-- The leaves of rows are what is found from the places of the rows. -/
theorem mem_leaves_rows {page : Page} {matcher : PropertyMatcher} {segments : List Segment}
    {places : List Reached} {rows : List ResultSet} (h : RowsFrom page matcher segments places rows)
    (leaf : ResultSet) : leaf ∈ (ResultSet.array rows).leaves ↔
      ∃ one ∈ places, ∃ next, leadAll page matcher segments one = .ok next ∧
        leaf ∈ itemsOf page.root next := by
  rw [ResultSet.leaves, leavesOfAll_eq, List.mem_flatMap]
  constructor
  · rintro ⟨row, hr, hl⟩
    obtain ⟨one, ho, next, e, same⟩ := exists_left_of_forall₂ h row hr
    rw [same, leaves_itemsOf] at hl
    exact ⟨one, ho, next, e, hl⟩
  · rintro ⟨one, ho, next, e, hl⟩
    obtain ⟨row, hr, next', e', same⟩ := exists_right_of_forall₂ h one ho
    have nexts : next = next' := Except.ok.inj (e.symm.trans e')
    refine ⟨row, hr, ?_⟩
    rw [same, leaves_itemsOf, ← nexts]
    exact hl

/-- What the whole finds is what the chain finds, once. -/
theorem leadAll_cut {page : Page} {matcher : PropertyMatcher} (ordered : page.SearchesInOrder)
    {first second : List Segment} (hf : first ≠ []) (hs : second ≠ []) {middle next : Reached}
    {rows : List ResultSet} (e : leadAll page matcher first start = .ok middle)
    (e' : leadAll page matcher second middle = .ok next)
    (h : RowsFrom page matcher second (singles middle) rows) :
    (ResultSet.array (itemsOf page.root next)).leaves.Nodup ∧
      ∀ leaf, leaf ∈ (ResultSet.array (itemsOf page.root next)).leaves ↔
        leaf ∈ (ResultSet.array rows).leaves := by
  have distributes : DistributesAt (leadAll page matcher second) middle :=
    leadAll_distributes second (leadAll_ne_root hf e)
  have found := leaves_itemsOf page.root next
  refine ⟨?_, fun leaf => ?_⟩
  · rw [found]
    exact itemsOf_nodup page.root (distributes.ne_root e') (leadAll_inOrder hs (Or.inl ordered) e').nodup
  · rw [found, mem_leaves_rows h, itemsOf_eq, List.mem_map]
    simp only [distributes.mem_iff e', itemsOf_eq, List.mem_map]
    constructor
    · rintro ⟨place, ⟨one, ho, there, l, hp⟩, rfl⟩
      exact ⟨one, ho, there, l, place, hp, rfl⟩
    · rintro ⟨one, ho, there, l, place, hp, rfl⟩
      exact ⟨place, ⟨one, ho, there, l, hp⟩, rfl⟩

/-- The whole is refused exactly when the part behind the cut is. -/
theorem refusal?_cut (allowComponents : Bool) (text : String) (segments : List Segment)
    {second : String} {t : Selector} (ht : Selector.parse second = .ok t) :
    refusal? allowComponents (Query.all text) ⟨text, segments ++ t.segments⟩ = none ↔
      refusal? allowComponents (Query.all second) t = none := by
  rw [refusal?_all, refusal?_all, endsInComponent_append _ _ (Selector.segments_ne_nil ht)]
  split <;> simp

section cut

variable (settled : functions.Settled) (limit : Nat) (place : context.place? = some start)
  {first second : String} {s t : Selector} (hs : Selector.parse first = .ok s)
  (ht : Selector.parse second = .ok t) (free : Selector.endsInEscape first = false)
  (cut : CutsAtComponent s t)

include settled place hs ht free cut

/-- Where the part behind the cut is refused, neither the whole nor the chain comes to anything. -/
theorem outcome_resolve_cut_refused {e : QueryError}
    (refused : refusal? setting.config.allowComponentResults (Query.all second) t = some e) (o : Outcome) :
    outcome (resolve setting functions limit ⟨context, .query (.all (first ++ " " ++ second))⟩) ≠ .ok o ∧
      outcome (resolve setting functions limit
        ⟨.fetcher context (.query (.all first)), .query (.all second)⟩) ≠ .ok o := by
  have parsed := parse_cut hs ht free cut
  constructor
  · have refuses := (refusal?_cut setting.config.allowComponentResults (first ++ " " ++ second)
      s.segments ht).not.mpr (by simp [refused])
    obtain ⟨_, refused'⟩ := Option.ne_none_iff_exists'.mp refuses
    exact outcome_resolve_refused settled (.all _) parsed refused' limit (ne_null_of_place place)
  · refine outcome_resolve_refused settled (.all second) ht refused limit fun a e => ?_
    obtain ⟨_, -, anchor⟩ := (outcome_normalizeBy_all settled hs place).mp e
    rw [anchor]
    exact Anchor.noConfusion

theorem outcome_resolve_cut (ordered : setting.page.SearchesInOrder) :
    let whole := outcome (resolve setting functions limit
      ⟨context, .query (.all (first ++ " " ++ second))⟩)
    let chain := outcome (resolve setting functions limit
      ⟨.fetcher context (.query (.all first)), .query (.all second)⟩)
    ((∃ o, whole = .ok o) ↔ ∃ o, chain = .ok o) ∧
      ∀ o, whole = .ok o → ∃ found rows, o = .results found ∧ chain = .ok (.results (.array rows)) ∧
        (∀ row ∈ rows, ∃ cells, row = .array cells) ∧ found.leaves.Nodup ∧
        ∀ leaf, leaf ∈ found.leaves ↔ leaf ∈ (ResultSet.array rows).leaves := by
  intro whole chain
  have hf := Selector.segments_ne_nil hs
  have hs' := Selector.segments_ne_nil ht
  cases refused : refusal? setting.config.allowComponentResults (Query.all second) t with
  | some e =>
    have neither := outcome_resolve_cut_refused settled limit place hs ht free cut refused
    refine ⟨⟨?_, ?_⟩, fun o e => absurd e (neither o).1⟩
    · exact fun ⟨o, e⟩ => absurd e (neither o).1
    · exact fun ⟨o, e⟩ => absurd e (neither o).2
  | none =>
    have fits := (refusal?_cut setting.config.allowComponentResults (first ++ " " ++ second)
      s.segments ht).mpr refused
    have wholes : ∀ o, whole = .ok o ↔ _ := fun _ =>
      outcome_resolve_at settled (.all _) (parse_cut hs ht free cut) fits place limit
    have chains : ∀ o, chain = .ok o ↔ _ := fun _ =>
      outcome_resolve_chain settled hs ht refused place limit
    -- From where the first part leads, the second leads on as a whole just when it does place by place.
    have rows : ∀ {middle}, leadAll setting.page setting.matcher s.segments start = .ok middle →
        ((∃ next, leadAll setting.page setting.matcher t.segments middle = .ok next) ↔
          ∃ rows, RowsFrom setting.page setting.matcher t.segments (singles middle) rows) := fun e => by
      rw [exists_rowsFrom_iff, (leadAll_distributes t.segments (leadAll_ne_root hf e)).ok_iff]
    simp only [wholes, chains, leadAll_append, bind_ok_iff]
    refine ⟨⟨?_, ?_⟩, ?_⟩
    · rintro ⟨_, next, ⟨middle, e, e'⟩, -⟩
      obtain ⟨found, h⟩ := (rows e).mp ⟨next, e'⟩
      exact ⟨_, middle, found, e, h, rfl⟩
    · rintro ⟨_, middle, found, e, h, -⟩
      obtain ⟨next, e'⟩ := (rows e).mpr ⟨found, h⟩
      exact ⟨_, next, ⟨middle, e, e'⟩, rfl⟩
    · rintro _ ⟨next, ⟨middle, e, e'⟩, rfl⟩
      obtain ⟨found, h⟩ := (rows e).mp ⟨next, e'⟩
      have arrays : ∀ row ∈ found, ∃ cells, row = .array cells := fun row hr => by
        obtain ⟨_, -, there, -, same⟩ := exists_left_of_forall₂ h row hr
        exact ⟨_, same⟩
      exact ⟨_, found, rfl, ⟨middle, found, e, h, rfl⟩, arrays, leadAll_cut ordered hf hs' e e' h⟩

end cut

/-- **A selector can be cut at a component segment.** All that it finds, from the root or from handles,
is found once, and it is what the part behind the cut finds in each of what the part before it finds.
The whole fails exactly when the chain of the two does. -/
theorem fetchWithin_cut {engine : Engine} (reached : engine.Reachable)
    (ordered : engine.page.SearchesInOrder) (limit now : Nat) {context : Context} {start : Reached}
    (place : context.place? = some start) {first second : String} {s t : Selector}
    (hs : Selector.parse first = .ok s) (ht : Selector.parse second = .ok t)
    (free : Selector.endsInEscape first = false) (cut : CutsAtComponent s t) :
    let whole := (engine.fetchWithin limit now ⟨context, .query (.all (first ++ " " ++ second))⟩).1
    let chain := (engine.fetchWithin limit now
      ⟨.fetcher context (.query (.all first)), .query (.all second)⟩).1
    ((∃ o, whole = .ok o) ↔ ∃ o, chain = .ok o) ∧
      ∀ o, whole = .ok o → ∃ found rows, o = .results found ∧ chain = .ok (.results (.array rows)) ∧
        (∀ row ∈ rows, ∃ cells, row = .array cells) ∧ found.leaves.Nodup ∧
        ∀ leaf, leaf ∈ found.leaves ↔ leaf ∈ (ResultSet.array rows).leaves := by
  simp only [fetchWithin_fst reached]
  exact outcome_resolve_cut reached.sound.2 limit place hs ht free cut ordered

/-- The items of the list, cut behind the component that renders it. -/
theorem fetchWithin_cut_mirror :
    let engine : Engine := { ofPage mirrorPage .default with matcher := Predicate.matches }
    ∃ found rows, (engine.fetchWithin 1 0 ⟨.root true, .query (.all ("@Menu" ++ " " ++ "li"))⟩).1 =
        .ok (.results found) ∧
      (engine.fetchWithin 1 0 ⟨.fetcher (.root true) (.query (.all "@Menu")), .query (.all "li")⟩).1 =
        .ok (.results (.array rows)) ∧
      found.leaves.Nodup ∧ ∀ leaf, leaf ∈ found.leaves ↔ leaf ∈ (ResultSet.array rows).leaves := by
  intro engine
  have cut := @fetchWithin_cut engine (.start mirrorPage Predicate.matches .default)
    (Page.ofTables_searchesInOrder _ _ _) 1 0 (.root true) .root rfl "@Menu" "li"
    ⟨"@Menu", [.component (.named "Menu")]⟩ ⟨"li", [.structural "li"]⟩ (by decide +kernel)
    (by decide +kernel) (by decide) (Or.inl rfl)
  obtain ⟨o, e⟩ : ∃ o, (engine.fetchWithin 1 0 ⟨.root true, .query (.all ("@Menu" ++ " " ++ "li"))⟩).1 =
    .ok o := exists_ok_of_toBool (by decide +kernel)
  obtain ⟨found, rows, rfl, e', -, distinct, same⟩ := cut.2 o e
  exact ⟨found, rows, e, e', distinct, same⟩

end Engine

end PageQuery

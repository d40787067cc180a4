/-
# Which handles a context lists is all that counts

All that a selector finds in a list of handles is what it finds in the parts of the list, each thing
once: nodes ascending, and components as they stand in the outline of the page. A part that fails fails
the whole. Because of the order, what is found is told by its members, so it does not show in which
order the handles are listed or how often, whatever the query asks for.

The engine puts what it finds from handles in order itself, so nothing is asked of the searches of the
page. From the root the order is that of the search.

Key definitions: `Context.Joins`, `Context.SameHandles`, `Engine.IsUnion`, `Engine.MadeOf`.
Key theorems: `Engine.InOrder.itemsOf_eq`, `Engine.MadeOf.mem_leadAll_iff`,
`Engine.outcome_resolve_at_iff`, `Engine.fetchWithin_joins`.
-/
import Mathlib.Data.List.Sort
import PageQuery.Proofs.Engine.Chaining

namespace PageQuery

namespace Context

/-- The first context lists the handles of the second and behind them those of the third. -/
inductive Joins : Context → Context → Context → Prop
  | nodes (as bs : List NodeId) : Joins (.nodes (as ++ bs)) (.nodes as) (.nodes bs)
  | components (as bs : List InstanceId) :
    Joins (.components (as ++ bs)) (.components as) (.components bs)

/-- Both contexts list the same handles, in any order and any number of times. -/
inductive SameHandles : Context → Context → Prop
  | nodes {as bs : List NodeId} : (∀ n, n ∈ as ↔ n ∈ bs) → SameHandles (.nodes as) (.nodes bs)
  | components {as bs : List InstanceId} :
    (∀ i, i ∈ as ↔ i ∈ bs) → SameHandles (.components as) (.components bs)

theorem SameHandles.symm {a b : Context} : SameHandles a b → SameHandles b a
  | .nodes same => .nodes fun n => (same n).symm
  | .components same => .components fun i => (same i).symm

end Context

open Run

namespace Engine

/-! ### What stands in order is told by its members -/

/-- Two lists along which a number grows are the same if their members are. -/
theorem eq_of_growing {α : Type} (f : α → Nat) {as bs : List α} (ha : as.Pairwise fun a b => f a < f b)
    (hb : bs.Pairwise fun a b => f a < f b) (same : ∀ a, a ∈ as ↔ a ∈ bs) : as = bs := by
  have : Std.Irrefl fun a b => f a < f b := ⟨fun _ => Nat.lt_irrefl _⟩
  have : Std.Antisymm fun a b => f a < f b := ⟨fun _ _ lt lt' => absurd lt (Nat.lt_asymm lt')⟩
  exact ha.eq_of_mem_iff hb same

theorem outline_growing (page : Page) :
    page.outline.Pairwise fun i j => page.outline.idxOf i < page.outline.idxOf j := by
  refine List.pairwise_iff_getElem.mpr fun m n hm hn lt => ?_
  rwa [page.outline_nodup.idxOf_getElem, page.outline_nodup.idxOf_getElem]

variable {page : Page} {matcher : PropertyMatcher}

@[simp] theorem mem_singles_nodes {nodes : List NodeId} {n : NodeId} :
    .nodes [n] ∈ singles (.nodes nodes) ↔ n ∈ nodes := by simp [singles]

@[simp] theorem mem_singles_components {components : List InstanceId} {i : InstanceId} :
    .components [i] ∈ singles (.components components) ↔ i ∈ components := by simp [singles]

/-- No place is both a node and a component. -/
theorem eq_nil_of_mixed {nodes : List NodeId} {components : List InstanceId}
    (same : ∀ place, place ∈ singles (.nodes nodes) ↔ place ∈ singles (.components components)) :
    nodes = [] ∧ components = [] := by
  constructor
  · refine List.eq_nil_iff_forall_not_mem.mpr fun n hn => ?_
    simpa [singles] using (same (.nodes [n])).mp (mem_singles_nodes.mpr hn)
  · refine List.eq_nil_iff_forall_not_mem.mpr fun i hi => ?_
    simpa [singles] using (same (.components [i])).mpr (mem_singles_components.mpr hi)

/-- **Places in order give the same items if they are the same places.** -/
theorem InOrder.itemsOf_eq (root : NodeId) : ∀ {a b : Reached}, InOrder page a → InOrder page b →
    (∀ place, place ∈ singles a ↔ place ∈ singles b) → itemsOf root a = itemsOf root b
  | .nodes ms, .nodes ns, ha, hb, same => by
    have members : ∀ n, n ∈ ms ↔ n ∈ ns := fun n => by simpa using same (.nodes [n])
    rw [eq_of_growing NodeId.index ha hb members]
  | .components is, .components js, ha, hb, same => by
    have members : ∀ i, i ∈ is ↔ i ∈ js := fun i => by
      simpa using same (.components [i])
    have growing := outline_growing page
    rw [eq_of_growing page.outline.idxOf (growing.sublist ha) (growing.sublist hb) members]
  | .nodes _, .components _, _, _, same => by
    obtain ⟨rfl, rfl⟩ := eq_nil_of_mixed same
    rfl
  | .components _, .nodes _, _, _, same => by
    obtain ⟨rfl, rfl⟩ := eq_nil_of_mixed fun place => (same place).symm
    rfl

/-- The items are those of both lists, each once, and stand in the order of what is reached. -/
structure IsUnion (page : Page) (as bs items : List ResultSet) : Prop where
  ordered : ∃ found, InOrder page found ∧ items = itemsOf page.root found
  distinct : items.Nodup
  mem_iff : ∀ item, item ∈ items ↔ item ∈ as ∨ item ∈ bs

/-! ### A whole and its parts -/

/-- Away from the root, the places of the parts are together those of the whole. -/
structure MadeOf (whole : Reached) (parts : List Reached) : Prop where
  whole_away : whole ≠ .root
  part_away : ∀ part ∈ parts, part ≠ .root
  mem_iff : ∀ one, one ∈ singles whole ↔ ∃ part ∈ parts, one ∈ singles part

namespace MadeOf

variable {whole : Reached} {parts : List Reached} (h : MadeOf whole parts) (segments : List Segment)

include h

/-- Segments lead on from the whole exactly when they do from each part. -/
theorem leadAll_ok_iff : (∃ next, leadAll page matcher segments whole = .ok next) ↔
    ∀ part ∈ parts, ∃ next, leadAll page matcher segments part = .ok next := by
  rw [(leadAll_distributes segments h.whole_away).ok_iff]
  constructor
  · intro all part hp
    exact (leadAll_distributes segments (h.part_away part hp)).ok_iff.mpr fun one ho =>
      all one ((h.mem_iff one).mpr ⟨part, hp, ho⟩)
  · intro all one ho
    obtain ⟨part, hp, ho⟩ := (h.mem_iff one).mp ho
    exact (leadAll_distributes segments (h.part_away part hp)).ok_iff.mp (all part hp) one ho

/-- From the whole they lead to what they lead to from the parts. -/
theorem mem_leadAll_iff {next : Reached} (e : leadAll page matcher segments whole = .ok next)
    (place : Reached) : place ∈ singles next ↔
      ∃ part ∈ parts, ∃ there, leadAll page matcher segments part = .ok there ∧ place ∈ singles there := by
  rw [(leadAll_distributes segments h.whole_away).mem_iff e]
  constructor
  · rintro ⟨one, ho, there, alone, hp⟩
    obtain ⟨part, part_mem, ho⟩ := (h.mem_iff one).mp ho
    obtain ⟨found, e'⟩ := (h.leadAll_ok_iff segments).mp ⟨next, e⟩ part part_mem
    have distributes : DistributesAt (leadAll page matcher segments) part :=
      leadAll_distributes segments (h.part_away part part_mem)
    exact ⟨part, part_mem, found, e', (distributes.mem_iff e' place).mpr ⟨one, ho, there, alone, hp⟩⟩
  · rintro ⟨part, part_mem, found, e', hp⟩
    have distributes : DistributesAt (leadAll page matcher segments) part :=
      leadAll_distributes segments (h.part_away part part_mem)
    obtain ⟨one, ho, there, alone, hp⟩ := (distributes.mem_iff e' place).mp hp
    exact ⟨one, (h.mem_iff one).mpr ⟨part, part_mem, ho⟩, there, alone, hp⟩

/-- What is found from the whole is what is found from the parts. -/
theorem mem_itemsOf_iff (root : NodeId) {next : Reached}
    (e : leadAll page matcher segments whole = .ok next) (item : ResultSet) :
    item ∈ itemsOf root next ↔
      ∃ part ∈ parts, ∃ there, leadAll page matcher segments part = .ok there ∧ item ∈ itemsOf root there := by
  simp only [Engine.itemsOf_eq, List.mem_map, h.mem_leadAll_iff segments e]
  constructor
  · rintro ⟨place, ⟨part, hp, there, e', found⟩, rfl⟩
    exact ⟨part, hp, there, e', place, found, rfl⟩
  · rintro ⟨part, hp, there, e', place, found, rfl⟩
    exact ⟨place, ⟨part, hp, there, e', found⟩, rfl⟩

end MadeOf

/-- Joined contexts are at the places of their parts. -/
theorem madeOf_of_joins {whole a b : Context} (h : Context.Joins whole a b) :
    ∃ w x y, whole.place? = some w ∧ a.place? = some x ∧ b.place? = some y ∧ MadeOf w [x, y] := by
  cases h with
  | nodes as bs =>
    refine ⟨_, _, _, rfl, rfl, rfl, Reached.noConfusion, ?_, fun one => ?_⟩
    · simp
    · simp only [singles, List.map_append, List.mem_append, List.mem_cons, List.not_mem_nil, or_false,
        exists_eq_or_imp, exists_eq_left]
  | components as bs =>
    refine ⟨_, _, _, rfl, rfl, rfl, Reached.noConfusion, ?_, fun one => ?_⟩
    · simp
    · simp only [singles, List.map_append, List.mem_append, List.mem_cons, List.not_mem_nil, or_false,
        exists_eq_or_imp, exists_eq_left]

/-- Contexts that list the same handles are at the same places. -/
theorem madeOf_of_sameHandles {a b : Context} (h : Context.SameHandles a b) :
    ∃ x y, a.place? = some x ∧ b.place? = some y ∧ MadeOf x [y] := by
  cases h with
  | nodes same =>
    refine ⟨_, _, rfl, rfl, Reached.noConfusion, by simp, fun one => ?_⟩
    simp only [singles, List.mem_map, same, List.mem_singleton, exists_eq_left]
  | components same =>
    refine ⟨_, _, rfl, rfl, Reached.noConfusion, by simp, fun one => ?_⟩
    simp only [singles, List.mem_map, same, List.mem_singleton, exists_eq_left]

/-! ### Queries in lists of handles -/

variable {setting : Setting} {functions : Functions} {selector : Selector} {context : Context}
  {start : Reached}

/-- A query at a place gives something exactly when it is not refused and its segments lead on. -/
theorem outcome_resolve_at_iff (settled : functions.Settled) (query : Query)
    (parsed : Selector.parse query.selector = .ok selector) (place : context.place? = some start)
    (limit : Nat) {o : Outcome} :
    outcome (resolve setting functions limit ⟨context, .query query⟩) = .ok o ↔
      refusal? setting.config.allowComponentResults query selector = none ∧
        ∃ next, leadAll setting.page setting.matcher selector.segments start = .ok next ∧
          o = .results (shape query (itemsOf setting.page.root next)) := by
  cases refused : refusal? setting.config.allowComponentResults query selector with
  | none => rw [outcome_resolve_at settled query parsed refused place, and_iff_right rfl]
  | some e =>
    have never : outcome (resolve setting functions limit ⟨context, .query query⟩) ≠ .ok o :=
      outcome_resolve_refused settled query parsed refused limit (ne_null_of_place place)
    exact ⟨fun found => absurd found never, fun ⟨fits, _⟩ => nomatch fits⟩

theorem exists_outcome_resolve_at_iff (settled : functions.Settled) (query : Query)
    (parsed : Selector.parse query.selector = .ok selector) (place : context.place? = some start)
    {limit : Nat} : (∃ o, outcome (resolve setting functions limit ⟨context, .query query⟩) = .ok o) ↔
      refusal? setting.config.allowComponentResults query selector = none ∧
        ∃ next, leadAll setting.page setting.matcher selector.segments start = .ok next := by
  simp only [outcome_resolve_at_iff settled query parsed place]
  constructor
  · rintro ⟨_, fits, next, e, -⟩
    exact ⟨fits, next, e⟩
  · rintro ⟨fits, next, e⟩
    exact ⟨_, fits, next, e, rfl⟩

/-- All that a selector finds in the handles of two lists, on a setting. -/
theorem outcome_resolve_joins (settled : functions.Settled) {text : String}
    (parsed : Selector.parse text = .ok selector) {whole a b : Context} (joins : Context.Joins whole a b)
    (limit : Nat) :
    let run := fun context => outcome (resolve setting functions limit ⟨context, .query (.all text)⟩)
    ((∃ o, run whole = .ok o) ↔ (∃ o, run a = .ok o) ∧ ∃ o, run b = .ok o) ∧
      ∀ o, run whole = .ok o → ∃ items as bs, o = .results (.array items) ∧
        run a = .ok (.results (.array as)) ∧ run b = .ok (.results (.array bs)) ∧
        IsUnion setting.page as bs items := by
  intro run
  obtain ⟨w, x, y, placeW, placeA, placeB, parts⟩ := madeOf_of_joins joins
  have segments := Selector.segments_ne_nil parsed
  have leads : (∃ next, leadAll setting.page setting.matcher selector.segments w = .ok next) ↔
      (∃ next, leadAll setting.page setting.matcher selector.segments x = .ok next) ∧
        ∃ next, leadAll setting.page setting.matcher selector.segments y = .ok next := by
    simp [parts.leadAll_ok_iff]
  constructor
  · simp only [run, exists_outcome_resolve_at_iff settled (.all text) parsed placeW,
      exists_outcome_resolve_at_iff settled (.all text) parsed placeA,
      exists_outcome_resolve_at_iff settled (.all text) parsed placeB, leads]
    exact and_and_left
  · intro o h
    obtain ⟨fits, next, e, rfl⟩ := (outcome_resolve_at_iff settled (.all text) parsed placeW limit).mp h
    obtain ⟨⟨there, ex⟩, there', ey⟩ := leads.mp ⟨next, e⟩
    have runA := (outcome_resolve_at_iff settled (.all text) parsed placeA limit).mpr
      ⟨fits, there, ex, rfl⟩
    have runB := (outcome_resolve_at_iff settled (.all text) parsed placeB limit).mpr
      ⟨fits, there', ey, rfl⟩
    have ordered := leadAll_inOrder segments (Or.inr parts.whole_away) e
    refine ⟨_, _, _, rfl, runA, runB, ⟨next, ordered, rfl⟩, ?_, fun item => ?_⟩
    · exact itemsOf_nodup setting.page.root (leadAll_ne_root segments e) ordered.nodup
    · simp [parts.mem_itemsOf_iff selector.segments setting.page.root e, ex, ey]

/-- Lists of the same handles give the same, on a setting. -/
theorem outcome_resolve_sameHandles (settled : functions.Settled) (query : Query)
    (parsed : Selector.parse query.selector = .ok selector) {a b : Context}
    (same : Context.SameHandles a b) (limit : Nat) {o : Outcome}
    (h : outcome (resolve setting functions limit ⟨a, .query query⟩) = .ok o) :
    outcome (resolve setting functions limit ⟨b, .query query⟩) = .ok o := by
  obtain ⟨x, y, placeA, placeB, parts⟩ := madeOf_of_sameHandles same
  have segments := Selector.segments_ne_nil parsed
  rw [outcome_resolve_at_iff settled query parsed placeA] at h
  obtain ⟨fits, next, e, rfl⟩ := h
  obtain ⟨next', e'⟩ := (parts.leadAll_ok_iff selector.segments).mp ⟨next, e⟩ y (List.mem_singleton_self y)
  have places : ∀ place, place ∈ singles next ↔ place ∈ singles next' := fun place => by
    simp [parts.mem_leadAll_iff selector.segments e, e']
  have ordered := leadAll_inOrder segments (Or.inr parts.whole_away) e
  have ordered' := leadAll_inOrder segments (Or.inr (parts.part_away y (List.mem_singleton_self y))) e'
  refine (outcome_resolve_at_iff settled query parsed placeB limit).mpr ⟨fits, next', e', ?_⟩
  rw [ordered.itemsOf_eq setting.page.root ordered' places]

/-- **All that a selector finds in a list of handles is the union of what it finds in its parts.** A
query for all, in the handles of two lists, fails exactly when it fails in one of them; what it finds is
what it finds in either, each thing once and in order. Whatever a query asks for, neither the order of
the handles nor how often one is listed changes what it gives. -/
theorem fetchWithin_joins {engine : Engine} (reached : engine.Reachable) (limit now : Nat)
    {text : String} {selector : Selector} (parsed : Selector.parse text = .ok selector) :
    let fetch := fun context query => (engine.fetchWithin limit now ⟨context, .query query⟩).1
    (∀ whole a b, Context.Joins whole a b →
      ((∃ o, fetch whole (.all text) = .ok o) ↔
        (∃ o, fetch a (.all text) = .ok o) ∧ ∃ o, fetch b (.all text) = .ok o) ∧
      ∀ o, fetch whole (.all text) = .ok o → ∃ items as bs, o = .results (.array items) ∧
        fetch a (.all text) = .ok (.results (.array as)) ∧
        fetch b (.all text) = .ok (.results (.array bs)) ∧ IsUnion engine.page as bs items) ∧
    ∀ a b, Context.SameHandles a b → ∀ multi at? o,
      fetch a ⟨text, multi, at?⟩ = .ok o ↔ fetch b ⟨text, multi, at?⟩ = .ok o := by
  simp only [fetchWithin_fst reached]
  refine ⟨fun whole a b joins => ?_, fun a b same multi at? o => ⟨?_, ?_⟩⟩
  · exact outcome_resolve_joins reached.sound.2 parsed joins limit
  · exact outcome_resolve_sameHandles reached.sound.2 ⟨text, multi, at?⟩ parsed same limit
  · exact outcome_resolve_sameHandles reached.sound.2 ⟨text, multi, at?⟩ parsed same.symm limit

/-- The items of the list, found from it and from one of them, which has none. -/
theorem fetchWithin_joins_mirror :
    let engine : Engine := { ofPage mirrorPage .default with matcher := Predicate.matches }
    let fetch := fun nodes : List NodeId =>
      (engine.fetchWithin 1 0 ⟨.nodes nodes, .query (.all "li")⟩).1
    ∃ items as bs, fetch ([⟨1⟩] ++ [⟨2⟩]) = .ok (.results (.array items)) ∧
      fetch [⟨1⟩] = .ok (.results (.array as)) ∧ fetch [⟨2⟩] = .ok (.results (.array bs)) ∧
      IsUnion engine.page as bs items ∧ fetch [⟨2⟩, ⟨1⟩, ⟨2⟩] = .ok (.results (.array items)) := by
  intro engine fetch
  have lists := @fetchWithin_joins engine (.start mirrorPage Predicate.matches .default) 1 0 "li"
    ⟨"li", [.structural "li"]⟩ (by decide +kernel)
  have parts : (∃ o, fetch [⟨1⟩] = .ok o) ∧ ∃ o, fetch [⟨2⟩] = .ok o :=
    ⟨exists_ok_of_toBool (by decide +kernel), exists_ok_of_toBool (by decide +kernel)⟩
  have joined := lists.1 _ _ _ (.nodes [⟨1⟩] [⟨2⟩])
  obtain ⟨o, e⟩ := joined.1.mpr parts
  obtain ⟨items, as, bs, rfl, first, second, union⟩ := joined.2 o e
  have shuffled : Context.SameHandles (.nodes ([⟨1⟩] ++ [⟨2⟩])) (.nodes [⟨2⟩, ⟨1⟩, ⟨2⟩]) :=
    .nodes fun n => by grind
  exact ⟨items, as, bs, e, first, second, union, (lists.2 _ _ shuffled true none _).mp e⟩

end Engine

end PageQuery

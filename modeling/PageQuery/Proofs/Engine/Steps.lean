/-
# Segments lead on from each place alone

Where a segment leads is read off the page. From several places it leads to all that it leads to from
each of them alone, and it fails if it fails from one of them. This carries over to segments one after
another, so what a selector finds from some places is the union of what it finds from each.

From the root this cannot be said: the root of the page and the node at the root are searched in
different ways. But no segment leads back to the root.

Key definitions: `Engine.lead`, `Engine.leadAll`, `Engine.singles`, `Engine.Distributes`, `Engine.InOrder`.
Key theorems: `Engine.outcome_runSegments`, `Engine.lead_distributes`, `Engine.leadAll_distributes`,
`Engine.leadAll_inOrder`, `Engine.shape_cases`.
-/
import PageQuery.Proofs.Engine.Resolution

namespace PageQuery

open Run

/-! ### The searches work item by item -/

namespace Page

variable {page : Page} {matcher : PropertyMatcher} {query : ComponentQuery}

theorem pointwise_foundWithin (selector : String) : Pointwise (page.foundWithin selector) :=
  (pointwise_collect (page.foundIn selector)).map fun _ _ => NodeId.mem_ascending

theorem isBelow_iff {instances : List InstanceId} {i : InstanceId} :
    page.IsBelow (.below instances) i ↔ ∃ s ∈ instances, page.IsBelow (.below [s]) i := by
  unfold IsBelow
  simp only [List.mem_singleton, exists_eq_left]
  constructor
  · rintro ⟨a, ha, s, hs, same⟩
    exact ⟨s, hs, a, ha, same⟩
  · rintro ⟨s, hs, a, ha, same⟩
    exact ⟨a, ha, s, hs, same⟩

theorem accepts_below_iff (instances : List InstanceId) {i : InstanceId} :
    page.Accepts matcher query (.below instances) i ↔
      ∃ s ∈ instances, page.Accepts matcher query (.below [s]) i := by
  unfold Accepts
  rw [isBelow_iff]
  constructor
  · rintro ⟨m, s, hs, below⟩
    exact ⟨s, hs, m, below⟩
  · rintro ⟨s, hs, m, below⟩
    exact ⟨m, s, hs, below⟩

theorem pointwise_descendants :
    Pointwise fun instances => page.descendants matcher (.below instances) query := by
  refine .of (fun s => ∀ i ∈ page.outline, page.Accepts matcher query (.below [s]) i → page.IsReadable i)
    (fun s i => i ∈ page.outline ∧ page.Accepts matcher query (.below [s]) i) (fun instances => ?_)
    fun {instances found} h i => ?_
  · rw [descendants_ok_iff]
    simp only [accepts_below_iff instances]
    constructor
    · exact fun h s hs i hi accepted => h i hi ⟨s, hs, accepted⟩
    · rintro h i hi ⟨s, hs, accepted⟩
      exact h s hs i hi accepted
  · rw [mem_of_descendants h, accepts_below_iff]
    constructor
    · rintro ⟨hi, s, hs, accepted⟩
      exact ⟨s, hs, hi, accepted⟩
    · rintro ⟨s, hs, hi, accepted⟩
      exact ⟨hi, s, hs, accepted⟩

theorem pointwise_belowNodes : Pointwise fun nodes => page.belowNodes matcher nodes query := by
  refine .of (fun n => ∀ i ∈ page.outline, page.isMatch matcher query i →
      (page.host? n).isNone ∨ page.LiesBelow i n → page.IsReadable i)
    (fun n i => i ∈ page.outline ∧ page.isMatch matcher query i ∧ page.LiesBelow i n) (fun nodes => ?_)
    fun {nodes found} h i => ?_
  · rw [belowNodes_ok_iff]
    constructor
    · exact fun h n hn i hi m lies => h i hi m ⟨n, hn, lies⟩
    · rintro h i hi m ⟨n, hn, lies⟩
      exact h n hn i hi m lies
  · rw [mem_of_belowNodes h]
    constructor
    · rintro ⟨hi, m, n, hn, lies⟩
      exact ⟨n, hn, hi, m, lies⟩
    · rintro ⟨n, hn, hi, m, lies⟩
      exact ⟨hi, m, n, hn, lies⟩

end Page

/-! ### Nodes in document order -/

/-- Searches find nodes in document order, each once. -/
def Page.SearchesInOrder (page : Page) : Prop := ∀ scope selector found,
  page.search scope selector = .ok found → found.Pairwise fun m n => m.index < n.index

/-- Pages given by tables are searched so. -/
theorem Page.ofTables_searchesInOrder (root : NodeId) (nodes : Array TableNode)
    (instances : Array TableInstance) : (Page.ofTables root nodes instances).SearchesInOrder := by
  intro scope selector found h
  replace h : Page.searchTable nodes _ root scope selector = .ok found := h
  unfold Page.searchTable at h
  split at h
  · cases h
  · split at h
    · cases h
    · cases h
      have all : ((List.range nodes.size).map NodeId.mk).Pairwise fun m n => m.index < n.index :=
        List.pairwise_map.mpr List.pairwise_lt_range
      exact all.filter _

namespace Engine

/-! ### Where segments lead -/

/-- Where a segment leads, read off the page. -/
def lead (page : Page) (matcher : PropertyMatcher) : Segment → Reached → Except QueryError Reached
  | .structural selector, .root => ((page.search page.root selector).mapError .search).map .nodes
  | .structural selector, .nodes nodes =>
    (((collect (page.search · selector) nodes).map NodeId.ascending).mapError .search).map .nodes
  | .structural selector, .components components => (page.foundWithin selector components).map .nodes
  | .component query, .root => (page.descendants matcher .everywhere query).map .components
  | .component query, .nodes nodes => (page.belowNodes matcher nodes query).map .components
  | .component query, .components components =>
    (page.descendants matcher (.below components) query).map .components

/-- Where segments lead one after another. -/
def leadAll (page : Page) (matcher : PropertyMatcher) : List Segment → Reached → Except QueryError Reached
  | [], reached => .ok reached
  | segment :: rest, reached => (lead page matcher segment reached).bind (leadAll page matcher rest)

@[simp] theorem outcome_ofDocument {α : Type} (r : Except SearchError α) :
    outcome (Run.ofDocument r) = (r.mapError .search).mapError .error := by
  cases r <;> rfl

/-- What is found is what was reached. -/
theorem outcome_reached {α : Type} {m : Run α} {r : Except QueryError α} {allowed : Halt → Prop}
    (f : α → Reached) (settles : Settles allowed m) (h : outcome m = r.mapError .error) :
    outcome (m >>= fun a => pure (f a)) = (r.map f).mapError .error := by
  rw [outcome_map f settles, h]
  cases r <;> rfl

variable {setting : Setting}

theorem outcome_runSegment : ∀ (segment : Segment) (reached : Reached),
    outcome (runSegment setting segment reached) =
      (lead setting.page setting.matcher segment reached).mapError .error
  | .structural selector, .root =>
    outcome_reached _ (Settles.ofDocument Halt.isError) (outcome_ofDocument _)
  | .structural selector, .nodes nodes => by
    refine outcome_reached _ (searchNodes_settles selector nodes) ?_
    unfold searchNodes
    rw [outcome_map _ (Settles.ofDocument Halt.isError), outcome_ofDocument, Page.searchFromEach_eq]
    cases collect (setting.page.search · selector) nodes <;> rfl
  | .structural selector, .components components =>
    outcome_reached _ (Settles.ofSearch (setting.page.searchWithin_finds selector components) Halt.isError)
      (outcome_ofSearch (setting.page.searchWithin_finds selector components))
  | .component _, .root =>
    outcome_reached _ (Settles.ofSearch (Page.findDescendants_finds .everywhere) Halt.isError)
      (outcome_ofSearch (Page.findDescendants_finds .everywhere))
  | .component _, .nodes nodes =>
    outcome_reached _ (Settles.ofSearch (Page.findBelowNodes_finds nodes) Halt.isError)
      (outcome_ofSearch (Page.findBelowNodes_finds nodes))
  | .component _, .components components =>
    outcome_reached _ (Settles.ofSearch (Page.findDescendants_finds (.below components)) Halt.isError)
      (outcome_ofSearch (Page.findDescendants_finds (.below components)))

/-- **Running segments leads where the page says.** -/
theorem outcome_runSegments : ∀ (segments : List Segment) (reached : Reached),
    outcome (runSegments setting segments reached) =
      (leadAll setting.page setting.matcher segments reached).mapError .error
  | [], _ => rfl
  | segment :: rest, reached => by
    refine (outcome_bind (runSegment_settles segment reached) (runSegments_settles rest)).trans ?_
    rw [outcome_runSegment, leadAll]
    cases lead setting.page setting.matcher segment reached with
    | error e => rfl
    | ok next => exact outcome_runSegments rest next

variable {page : Page} {matcher : PropertyMatcher}

theorem leadAll_append (first second : List Segment) (reached : Reached) :
    leadAll page matcher (first ++ second) reached =
      (leadAll page matcher first reached).bind (leadAll page matcher second) := by
  induction first generalizing reached with
  | nil => rfl
  | cons segment rest ih =>
    rw [List.cons_append, leadAll, leadAll]
    cases lead page matcher segment reached with
    | error e => rfl
    | ok next => exact ih next

/-! ### Place by place -/

/-- What was reached, one place at a time. -/
def singles : Reached → List Reached
  | .root => [.root]
  | .nodes nodes => nodes.map fun n => .nodes [n]
  | .components components => components.map fun i => .components [i]

theorem singles_of_mem {reached one : Reached} (h : one ∈ singles reached) : singles one = [one] := by
  cases reached with
  | root => obtain rfl := List.mem_singleton.mp h; rfl
  | nodes nodes => obtain ⟨n, -, rfl⟩ := List.mem_map.mp h; rfl
  | components components => obtain ⟨i, -, rfl⟩ := List.mem_map.mp h; rfl

theorem ne_root_of_mem {reached one : Reached} (start : reached ≠ .root) (h : one ∈ singles reached) :
    one ≠ .root := by
  cases reached with
  | root => exact absurd rfl start
  | nodes nodes => obtain ⟨n, -, rfl⟩ := List.mem_map.mp h; exact fun e => (nomatch e)
  | components components => obtain ⟨i, -, rfl⟩ := List.mem_map.mp h; exact fun e => (nomatch e)

/-- From there a step leads to what it leads to from each place alone. -/
structure DistributesAt (f : Reached → Except QueryError Reached) (reached : Reached) : Prop where
  ok_iff : (∃ next, f reached = .ok next) ↔ ∀ one ∈ singles reached, ∃ next, f one = .ok next
  mem_iff : ∀ {next}, f reached = .ok next → ∀ place, place ∈ singles next ↔
    ∃ one ∈ singles reached, ∃ there, f one = .ok there ∧ place ∈ singles there
  ne_root : ∀ {next}, f reached = .ok next → next ≠ .root

/-- From anywhere but the root, the step does. -/
def Distributes (f : Reached → Except QueryError Reached) : Prop :=
  ∀ {reached : Reached}, reached ≠ .root → DistributesAt f reached

section

variable {α β : Type} {f : List α → Except QueryError (List β)}

/-- A search that works item by item makes a step that does. -/
theorem distributesAt_of_pointwise (h : Pointwise f) {step : Reached → Except QueryError Reached}
    (start : List α → Reached) (into : List β → Reached)
    (starts : ∀ as, singles (start as) = as.map fun a => start [a])
    (intos : ∀ bs, into bs ≠ .root ∧ singles (into bs) = bs.map fun b => into [b])
    (steps : ∀ as, step (start as) = (f as).map into) (as : List α) : DistributesAt step (start as) where
  ok_iff := by
    have ok : ∀ as, (∃ next, (f as).map into = .ok next) ↔ ∃ bs, f as = .ok bs := fun as => by
      cases f as <;> simp [Except.map]
    simp only [starts as, List.forall_mem_map, steps, ok]
    exact h.ok_iff as
  mem_iff {next} e place := by
    obtain ⟨bs, found, rfl⟩ := map_ok_iff.mp (steps as ▸ e)
    rw [(intos bs).2, starts as, List.mem_map]
    simp only [h.mem_iff found]
    constructor
    · rintro ⟨b, ⟨a, ha, cs, alone, hb⟩, rfl⟩
      refine ⟨start [a], List.mem_map_of_mem ha, into cs, ?_, ?_⟩
      · exact (steps [a]).trans (map_ok_iff.mpr ⟨cs, alone, rfl⟩)
      · exact (intos cs).2 ▸ List.mem_map_of_mem hb
    · rintro ⟨one, ho, there, alone, hp⟩
      obtain ⟨a, ha, rfl⟩ := List.mem_map.mp ho
      obtain ⟨cs, found, rfl⟩ := map_ok_iff.mp ((steps [a]).symm.trans alone)
      rw [(intos cs).2] at hp
      obtain ⟨b, hb, rfl⟩ := List.mem_map.mp hp
      exact ⟨b, ⟨a, ha, cs, found, hb⟩, rfl⟩
  ne_root {next} e := by
    obtain ⟨bs, -, rfl⟩ := map_ok_iff.mp (steps as ▸ e)
    exact (intos bs).1

end

theorem lead_distributes (segment : Segment) : Distributes (lead page matcher segment) := by
  have nodes : ∀ ns : List NodeId, singles (.nodes ns) = ns.map fun n => .nodes [n] := fun _ => rfl
  have components : ∀ is : List InstanceId, singles (.components is) = is.map fun i => .components [i] :=
    fun _ => rfl
  have intoNodes : ∀ ns : List NodeId, Reached.nodes ns ≠ .root ∧ singles (.nodes ns) = _ := fun ns =>
    ⟨fun h => (nomatch h), nodes ns⟩
  have intoComponents : ∀ is : List InstanceId, Reached.components is ≠ .root ∧ singles (.components is) = _ :=
    fun is => ⟨fun h => (nomatch h), components is⟩
  intro reached start
  match segment, reached, start with
  | .structural selector, .nodes ns, _ =>
    have items := ((pointwise_collect (page.search · selector)).map fun _ _ =>
      NodeId.mem_ascending).mapError QueryError.search
    exact distributesAt_of_pointwise items .nodes .nodes nodes intoNodes (fun _ => rfl) ns
  | .structural selector, .components is, _ =>
    exact distributesAt_of_pointwise (Page.pointwise_foundWithin selector) .components .nodes components
      intoNodes (fun _ => rfl) is
  | .component query, .nodes ns, _ =>
    exact distributesAt_of_pointwise Page.pointwise_belowNodes .nodes .components nodes intoComponents
      (fun _ => rfl) ns
  | .component query, .components is, _ =>
    exact distributesAt_of_pointwise Page.pointwise_descendants .components .components components
      intoComponents (fun _ => rfl) is

theorem distributes_ok : Distributes .ok := by
  intro reached start
  refine ⟨⟨fun _ one _ => ⟨one, rfl⟩, fun _ => ⟨reached, rfl⟩⟩, fun {next} e place => ?_,
    fun e => Except.ok.inj e ▸ start⟩
  obtain rfl := Except.ok.inj e
  constructor
  · exact fun h => ⟨place, h, place, rfl, singles_of_mem h ▸ List.mem_singleton_self place⟩
  · rintro ⟨one, h, there, e, hp⟩
    obtain rfl := Except.ok.inj e
    rw [singles_of_mem h, List.mem_singleton] at hp
    exact hp ▸ h

section bind

variable {f g : Reached → Except QueryError Reached} (hf : Distributes f) (hg : Distributes g)
  {reached : Reached} (start : reached ≠ .root)

include hf hg start

/-- If the second step leads on from where the first leads, it does from where the first leads from one
of the places. -/
theorem Distributes.goes_on {one there middle next : Reached} (e : f reached = .ok middle)
    (e' : g middle = .ok next) (ho : one ∈ singles reached) (alone : f one = .ok there) :
    ∃ last, g there = .ok last := by
  have away := hg ((hf (ne_root_of_mem start ho)).ne_root alone)
  refine away.ok_iff.mpr fun place hp => ?_
  have inMiddle := ((hf start).mem_iff e place).mpr ⟨one, ho, there, alone, hp⟩
  exact (hg ((hf start).ne_root e)).ok_iff.mp ⟨next, e'⟩ place inMiddle

theorem Distributes.bind_ok_iff_each : (∃ next, (f reached).bind g = .ok next) ↔
    ∀ one ∈ singles reached, ∃ next, (f one).bind g = .ok next := by
  constructor
  · rintro ⟨next, e⟩ one ho
    obtain ⟨middle, e, e'⟩ := bind_ok_iff.mp e
    obtain ⟨there, alone⟩ := (hf start).ok_iff.mp ⟨middle, e⟩ one ho
    obtain ⟨last, more⟩ := hf.goes_on hg start e e' ho alone
    exact ⟨last, bind_ok_iff.mpr ⟨there, alone, more⟩⟩
  · intro all
    have first : ∀ one ∈ singles reached, ∃ there, f one = .ok there := fun one ho => by
      obtain ⟨last, e⟩ := all one ho
      obtain ⟨there, alone, -⟩ := bind_ok_iff.mp e
      exact ⟨there, alone⟩
    obtain ⟨middle, e⟩ := (hf start).ok_iff.mpr first
    have second : ∀ place ∈ singles middle, ∃ next, g place = .ok next := fun place hp => by
      obtain ⟨one, ho, there, alone, hp⟩ := ((hf start).mem_iff e place).mp hp
      obtain ⟨last, e'⟩ := all one ho
      rw [alone, ok_bind] at e'
      have away := hg ((hf (ne_root_of_mem start ho)).ne_root alone)
      exact away.ok_iff.mp ⟨last, e'⟩ place hp
    obtain ⟨next, e'⟩ := (hg ((hf start).ne_root e)).ok_iff.mpr second
    exact ⟨next, bind_ok_iff.mpr ⟨middle, e, e'⟩⟩

/-- Beyond the first step every place is reached from some place before it. -/
theorem Distributes.bind_mem_iff {next : Reached} (h : (f reached).bind g = .ok next) (place : Reached) :
    place ∈ singles next ↔
      ∃ one ∈ singles reached, ∃ there, (f one).bind g = .ok there ∧ place ∈ singles there := by
  obtain ⟨middle, e, e'⟩ := bind_ok_iff.mp h
  rw [(hg ((hf start).ne_root e)).mem_iff e' place]
  constructor
  · rintro ⟨via, hv, last, h, hp⟩
    obtain ⟨one, ho, there, alone, hv⟩ := ((hf start).mem_iff e via).mp hv
    obtain ⟨final, more⟩ := hf.goes_on hg start e e' ho alone
    have away := hg ((hf (ne_root_of_mem start ho)).ne_root alone)
    have inFinal := (away.mem_iff more place).mpr ⟨via, hv, last, h, hp⟩
    exact ⟨one, ho, final, bind_ok_iff.mpr ⟨there, alone, more⟩, inFinal⟩
  · rintro ⟨one, ho, final, h, hp⟩
    obtain ⟨there, alone, more⟩ := bind_ok_iff.mp h
    have away := hg ((hf (ne_root_of_mem start ho)).ne_root alone)
    obtain ⟨via, hv, last, h, hp⟩ := (away.mem_iff more place).mp hp
    exact ⟨via, ((hf start).mem_iff e via).mpr ⟨one, ho, there, alone, hv⟩, last, h, hp⟩

end bind

/-- Steps that distribute do so one after the other. -/
theorem Distributes.bind {f g : Reached → Except QueryError Reached} (hf : Distributes f)
    (hg : Distributes g) : Distributes fun reached => (f reached).bind g := by
  intro reached start
  refine ⟨hf.bind_ok_iff_each hg start, hf.bind_mem_iff hg start, fun h => ?_⟩
  obtain ⟨middle, e, e'⟩ := bind_ok_iff.mp h
  exact (hg ((hf start).ne_root e)).ne_root e'

/-- **From some places segments lead to all that they lead to from each alone.** -/
theorem leadAll_distributes : ∀ segments : List Segment, Distributes (leadAll page matcher segments)
  | [] => distributes_ok
  | segment :: rest => Distributes.bind (lead_distributes segment) (leadAll_distributes rest)

/-- Segments lead away from the root. -/
theorem lead_ne_root : ∀ {segment : Segment} {reached next : Reached},
    lead page matcher segment reached = .ok next → next ≠ .root
  | .structural _, .root, _, e => by obtain ⟨_, -, rfl⟩ := map_ok_iff.mp e; exact Reached.noConfusion
  | .component _, .root, _, e => by obtain ⟨_, -, rfl⟩ := map_ok_iff.mp e; exact Reached.noConfusion
  | segment, .nodes _, _, e => (lead_distributes segment Reached.noConfusion).ne_root e
  | segment, .components _, _, e => (lead_distributes segment Reached.noConfusion).ne_root e

theorem leadAll_ne_root : ∀ {segments : List Segment} {reached next : Reached},
    segments ≠ [] → leadAll page matcher segments reached = .ok next → next ≠ .root
  | _ :: rest, _, _, _, e => by
    obtain ⟨middle, e, e'⟩ := bind_ok_iff.mp e
    exact (leadAll_distributes rest (lead_ne_root e)).ne_root e'

/-! ### What is reached stands in order -/

/-- Nodes ascend, and components stand as they do in the outline of the page. -/
def InOrder (page : Page) : Reached → Prop
  | .root => False
  | .nodes nodes => nodes.Pairwise fun m n => m.index < n.index
  | .components components => components.Sublist page.outline

theorem InOrder.nodup : ∀ {reached : Reached}, InOrder page reached → (singles reached).Nodup
  | .nodes nodes, h => by
    have ascending : nodes.Pairwise fun m n => m.index < n.index := h
    have distinct : nodes.Nodup := ascending.imp fun {m n} (lt : m.index < n.index) (e : m = n) =>
      Nat.lt_irrefl n.index (e ▸ lt)
    exact distinct.map fun a b e => by simpa using e
  | .components _, h => (page.outline_nodup.sublist h).map fun a b e => by simpa using e

/-- A segment leads to places in order if searches find them so; away from the root it does anyway. -/
theorem lead_inOrder : ∀ {segment : Segment} {reached next : Reached},
    page.SearchesInOrder ∨ reached ≠ .root → lead page matcher segment reached = .ok next →
      InOrder page next
  | .structural selector, .root, _, ordered, led => by
    obtain ⟨ns, found, rfl⟩ := map_ok_iff.mp led
    exact ordered.resolve_right (absurd rfl) _ _ _ (mapError_ok_iff.mp found)
  | .structural selector, .nodes _, _, _, led => by
    obtain ⟨_, found, rfl⟩ := map_ok_iff.mp led
    obtain ⟨ns, -, rfl⟩ := map_ok_iff.mp (mapError_ok_iff.mp found)
    exact NodeId.ascending_pairwise ns
  | .structural selector, .components _, _, _, led => by
    obtain ⟨_, found, rfl⟩ := map_ok_iff.mp led
    obtain ⟨ns, -, rfl⟩ := map_ok_iff.mp found
    exact NodeId.ascending_pairwise ns
  | .component query, .root, _, _, led => by
    obtain ⟨is, found, rfl⟩ := map_ok_iff.mp led
    exact Page.eq_of_descendants found ▸ List.filter_sublist
  | .component query, .nodes _, _, _, led => by
    obtain ⟨is, found, rfl⟩ := map_ok_iff.mp led
    exact Page.belowNodes_sublist found
  | .component query, .components _, _, _, led => by
    obtain ⟨is, found, rfl⟩ := map_ok_iff.mp led
    exact Page.eq_of_descendants found ▸ List.filter_sublist

/-- **Segments lead to places in order.** -/
theorem leadAll_inOrder : ∀ {segments : List Segment} {reached next : Reached}, segments ≠ [] →
    page.SearchesInOrder ∨ reached ≠ .root → leadAll page matcher segments reached = .ok next →
      InOrder page next
  | [segment], _, _, _, ordered, e => by
    obtain ⟨middle, e, e'⟩ := bind_ok_iff.mp e
    exact Except.ok.inj e' ▸ lead_inOrder ordered e
  | _ :: second :: rest, _, _, _, _, e => by
    obtain ⟨middle, e, e'⟩ := bind_ok_iff.mp e
    exact leadAll_inOrder (List.cons_ne_nil second rest) (Or.inr (lead_ne_root e)) e'

/-! ### What a query makes of it -/

theorem itemAt_cases (items : List ResultSet) (index : Int) :
    itemAt items index = .null ∨ itemAt items index ∈ items := by
  unfold itemAt
  dsimp only
  generalize (if index < 0 then items.length + index else index) = place
  split
  · exact .inl rfl
  · cases there : items[place.toNat]? with
    | none => exact .inl rfl
    | some r => exact .inr (List.mem_of_getElem? there)

/-- A query for all gives all items, and any other gives one of them or null. -/
theorem shape_cases (query : Query) (items : List ResultSet) :
    (query.multi = true ∧ query.at? = none) ∧ shape query items = .array items ∨
      ¬ (query.multi = true ∧ query.at? = none) ∧
        (shape query items = .null ∨ shape query items ∈ items) := by
  unfold shape
  cases query.multi with
  | false =>
    refine .inr ⟨nofun, ?_⟩
    cases items with
    | nil => exact .inl rfl
    | cons r rest => exact .inr List.mem_cons_self
  | true =>
    cases query.at? with
    | none => exact .inl ⟨⟨rfl, rfl⟩, rfl⟩
    | some index => exact .inr ⟨nofun, itemAt_cases items index⟩

end Engine

end PageQuery

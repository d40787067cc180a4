/-
# Component search filters the outline

A search for components is the outline of the page less the instances that the query or the scope
leaves out, whatever was asked of the table of identities before. It fails exactly when one of those
that remain cannot be read.

The walk carries the identities it has seen and asks for those above each match; the invariant is that
the identities seen are what the keys seen come to in the table, so that a climb stops where the keys
say.

Key definitions: `Page.IsBelow`, `Page.Accepts`, `Page.harvest`, `Page.descendants`.
Key theorems: `Page.findDescendants_finds`, `Page.mem_of_descendants`, `Page.descendants_ok_iff`,
`Page.findDescendants_filters_outline`.
-/
import PageQuery.Proofs.Component.Elements
import PageQuery.Proofs.Component.Outline

namespace PageQuery

namespace Page

variable (page : Page)

/-! ### What a search accepts -/

/-- The scope is everywhere, or an instance strictly above has the identity of one of the scope. -/
def IsBelow : Scope → InstanceId → Prop
  | .everywhere, _ => True
  | .below instances, i => ∃ a ∈ page.owners.after i, ∃ s ∈ instances, page.SameIdentity a s

instance : ∀ (scope : Scope) (i : InstanceId), Decidable (page.IsBelow scope i)
  | .everywhere, _ => inferInstanceAs (Decidable True)
  | .below instances, i =>
    inferInstanceAs (Decidable (∃ a ∈ page.owners.after i, ∃ s ∈ instances, page.SameIdentity a s))

/-- The query matches the instance and the scope holds it. -/
def Accepts (matcher : PropertyMatcher) (query : ComponentQuery) (scope : Scope) (i : InstanceId) : Prop :=
  page.isMatch matcher query i ∧ page.IsBelow scope i

instance (matcher : PropertyMatcher) (query : ComponentQuery) (scope : Scope) (i : InstanceId) :
    Decidable (page.Accepts matcher query scope i) :=
  inferInstanceAs (Decidable (_ ∧ _))

/-- The props of the instance can be read. -/
def IsReadable (i : InstanceId) : Prop := (page.kind i).isIntrospectable (page.backing? i)

instance (i : InstanceId) : Decidable (page.IsReadable i) :=
  inferInstanceAs (Decidable (_ = true))

/-! ### What climbs bring in -/

section harvest

variable (name : String) (accepts : InstanceId → Bool)

/-- What a search finds on climbs. The first instance it accepts and cannot read makes it fail. -/
def harvest (climbs : List (List InstanceId)) : Except QueryError (List InstanceId) :=
  match climbs.flatten.find? fun i => accepts i && !decide (page.IsReadable i) with
  | some i => .error (.unreadableComponent name (page.kind i))
  | none => .ok ((climbs.flatMap List.reverse).filter accepts)

/-- Whether an instance is found. -/
def verdict (i : InstanceId) : Except QueryError Bool :=
  if accepts i then
    if page.IsReadable i then .ok true else .error (.unreadableComponent name (page.kind i))
  else .ok false

theorem harvest_cons (climb : List InstanceId) (rest : List (List InstanceId)) :
    page.harvest name accepts (climb :: rest) = (page.harvest name accepts [climb]).bind fun found =>
      (page.harvest name accepts rest).map fun more => found ++ more := by
  unfold harvest
  simp only [List.flatten_cons, List.flatten_nil, List.append_nil, List.find?_append, List.flatMap_cons,
    List.flatMap_nil, List.filter_append]
  cases climb.find? fun i => accepts i && !decide (page.IsReadable i) with
  | some i => rfl
  | none =>
    cases rest.flatten.find? fun i => accepts i && !decide (page.IsReadable i) <;> rfl

theorem harvest_climb (i : InstanceId) (climb : List InstanceId) :
    page.harvest name accepts [i :: climb] = (page.verdict name accepts i).bind fun found =>
      (page.harvest name accepts [climb]).map fun outer => if found then outer ++ [i] else outer := by
  unfold harvest verdict
  simp only [List.flatten_cons, List.flatten_nil, List.append_nil, List.find?_cons, List.flatMap_cons,
    List.flatMap_nil, List.reverse_cons, List.filter_append, List.filter_cons, List.filter_nil]
  cases accepts i with
  | true =>
    by_cases h : page.IsReadable i
    · cases climb.find? fun i => accepts i && !decide (page.IsReadable i) <;> simp [h, Except.bind, Except.map]
    · simp [h, Except.bind]
  | false =>
    cases climb.find? fun i => accepts i && !decide (page.IsReadable i) <;> simp [Except.bind, Except.map]

end harvest

/-- What a search for components finds, read off the keys. -/
def descendants (matcher : PropertyMatcher) (scope : Scope) (query : ComponentQuery) :
    Except QueryError (List InstanceId) :=
  page.harvest query.name (fun i => page.Accepts matcher query scope i) (page.climbs [] page.nodes)

/-! ### The search finds what the keys give -/

variable {page} {ids : Identities} {matcher : PropertyMatcher} {query : ComponentQuery}

/-- The question whether the scope holds an instance has the answer that the keys give. -/
def ScopeAnswers (page : Page) (ids : Identities) (identities : Option (List Identity)) (scope : Scope) :
    Prop :=
  ∀ i, Answers ids (page.inScope identities (page.owners.after i)) (page.IsBelow scope i)

theorem ScopeAnswers.grow {later : Identities} {identities : Option (List Identity)} {scope : Scope}
    (h : page.ScopeAnswers ids identities scope) (g : ids.Grows later) :
    page.ScopeAnswers later identities scope := fun i => Gives.grow (h i) g

theorem scopeAnswers_everywhere : page.ScopeAnswers ids none .everywhere := fun _ => Answers.pure true

theorem scopeAnswers_below {instances : List InstanceId} {identities : List Identity}
    (named : List.Forall₂ ids.Names (instances.map page.identityKey) identities) :
    page.ScopeAnswers ids (some identities) (.below instances) := by
  intro i
  have known : ∀ later t a, ids.Grows later → later.Names (page.identityKey a) t →
      identities.contains t = decide (∃ s ∈ instances, page.SameIdentity a s) := fun later t a g ht => by
    rw [Identities.contains_of_names (Identities.names_grow g named) ht, Bool.eq_iff_iff,
      List.contains_iff_mem, List.mem_map, decide_eq_true_iff]
    exact exists_congr fun s => and_congr_right fun _ => eq_comm
  have asked := page.anyIdentified_answers known (page.owners.after i)
  have same : (page.owners.after i).any (fun a => decide (∃ s ∈ instances, page.SameIdentity a s)) =
      decide (page.IsBelow (.below instances) i) := by
    rw [Bool.eq_iff_iff, List.any_eq_true, decide_eq_true_iff]
    simp only [decide_eq_true_iff]
    rfl
  exact same ▸ asked

theorem isResult_finds {identities : Option (List Identity)} {scope : Scope}
    (h : page.ScopeAnswers ids identities scope) (i : InstanceId) :
    Finds ids (page.isResult matcher query identities i (page.owners.after i))
      (page.verdict query.name (fun j => page.Accepts matcher query scope j) i) := by
  unfold isResult verdict Accepts IsReadable
  by_cases m : page.isMatch matcher query i
  · simp only [m, Bool.not_true, Bool.false_eq_true, ↓reduceIte, true_and]
    refine Finds.bind_lift (h i) ?_
    by_cases b : page.IsBelow scope i
    · by_cases r : (page.kind i).isIntrospectable (page.backing? i)
      · simp only [b, r]; exact Finds.pure true
      · simp only [b, r]; exact Finds.throw _
    · simp only [b]; exact Finds.pure false
  · simp only [m]
    exact Finds.pure false

/-- A climb ends with a result and, unless it fails, with identities that are what the keys seen come
to. -/
def Climbed (seen : List IdentityKey) (result : Except QueryError (List InstanceId))
    (r : Except QueryError (List InstanceId × List Identity)) (after : Identities) : Prop :=
  match result with
  | .error e => r = .error e
  | .ok found => ∃ ts, r = .ok (found, ts) ∧ List.Forall₂ after.Names seen ts

theorem Climbed.of_ok {seen : List IdentityKey} {result : Except QueryError (List InstanceId)}
    {last : List InstanceId × List Identity} {after : Identities} (h : Climbed seen result (.ok last) after) :
    ∃ found ts, result = .ok found ∧ last = (found, ts) ∧ List.Forall₂ after.Names seen ts := by
  cases result with
  | error e => cases h
  | ok found =>
    obtain ⟨ts, e, named⟩ := h
    exact ⟨found, ts, rfl, Except.ok.inj e, named⟩

theorem Climbed.of_error {seen : List IdentityKey} {result : Except QueryError (List InstanceId)}
    {e : QueryError} {after : Identities} (h : Climbed seen result (.error e) after) : result = .error e := by
  cases result with
  | error e' => exact congrArg _ (Except.error.inj h).symm
  | ok found => obtain ⟨_, eq, -⟩ := h; cases eq

theorem climb_gives {identities : Option (List Identity)} {scope : Scope} :
    ∀ {chain : List InstanceId} {ids : Identities} {seen : List IdentityKey} {ts : List Identity},
      page.owners.IsUpward chain → page.ScopeAnswers ids identities scope → List.Forall₂ ids.Names seen ts →
      Gives ids (page.climb matcher query identities chain ts).run
        (Climbed (page.seenAfter seen (page.fresh seen chain))
          (page.harvest query.name (fun i => page.Accepts matcher query scope i) [page.fresh seen chain]))
  | [], ids, seen, ts, _, _, named =>
    Gives.pure fun _ g => ⟨ts, rfl, Identities.names_grow g named⟩
  | i :: above, ids, seen, ts, up, h, named => by
    obtain ⟨e, up⟩ := up.cons
    unfold climb fresh
    refine Gives.lift_bind (Gives.identify page i) fun middle t g ht => ?_
    rw [Identities.contains_of_names (Identities.names_grow g named) ht]
    split
    · exact Gives.pure fun _ k => ⟨ts, rfl, Identities.names_grow (g.trans k) named⟩
    · rw [harvest_climb, seenAfter_cons, e]
      refine Gives.search_bind (isResult_finds (h.grow g) i) (fun later found k eq => ?_) fun _ _ x _ eq => ?_
      · rw [← eq]
        have all := List.Forall₂.cons (ht.grow k) (Identities.names_grow (g.trans k) named)
        refine Gives.search_bind (climb_gives (e ▸ up) (h.grow (g.trans k)) all) (fun last rest _ c => ?_)
          fun _ _ x _ c => ?_
        · obtain ⟨outer, us, eq, rfl, nameds⟩ := c.of_ok
          rw [eq]
          exact Gives.pure fun _ k => ⟨us, rfl, Identities.names_grow k nameds⟩
        · rw [c.of_error]; rfl
      · rw [← eq]; rfl

theorem climbEach_finds {identities : Option (List Identity)} {scope : Scope} :
    ∀ {nodes : List NodeId} {ids : Identities} {seen : List IdentityKey} {ts : List Identity},
      page.ScopeAnswers ids identities scope → List.Forall₂ ids.Names seen ts →
      Finds ids (page.climbEach matcher query identities nodes ts)
        (page.harvest query.name (fun i => page.Accepts matcher query scope i) (page.climbs seen nodes))
  | [], _, _, _, _, _ => Finds.pure []
  | n :: rest, ids, seen, ts, h, named => by
    unfold climbEach climbs
    rw [harvest_cons]
    refine Gives.search_bind (climb_gives (page.isUpward_hostChain n) h named) (fun later last g c => ?_)
      fun _ _ x _ c => ?_
    · obtain ⟨found, us, eq, rfl, nameds⟩ := c.of_ok
      rw [eq]
      exact (climbEach_finds (h.grow g) nameds).map
    · rw [c.of_error]; rfl

/-- A search below no instance finds none. -/
@[simp] theorem descendants_below_nil : page.descendants matcher (.below []) query = .ok [] := by
  have nothing : ∀ i, ¬page.Accepts matcher query (.below []) i := by
    rintro i ⟨-, a, -, s, hs, -⟩
    cases hs
  unfold descendants harvest
  rw [List.find?_eq_none.mpr fun i _ => by simp [nothing], List.filter_eq_nil_iff.mpr fun i _ => by simp [nothing]]

/-- **Whatever was asked before, a search for components finds what the keys give.** -/
theorem findDescendants_finds (scope : Scope) :
    Finds ids (page.findDescendants matcher scope query) (page.descendants matcher scope query) := by
  match scope with
  | .everywhere => exact climbEach_finds scopeAnswers_everywhere .nil
  | .below [] => rw [descendants_below_nil]; exact Finds.pure []
  | .below (i :: rest) =>
    refine Gives.lift_bind (Gives.identifyEach page (i :: rest)) fun later ts _ named => ?_
    exact climbEach_finds (scopeAnswers_below named) .nil

theorem findDescendants_eq (scope : Scope) (ids : Identities) :
    (page.findDescendants matcher scope query ids).1 = page.descendants matcher scope query :=
  (findDescendants_finds scope ids (.refl ids)).2

/-! ### What is found, and when -/

/-- What a search finds is the outline less what it does not accept. -/
theorem eq_of_descendants {scope : Scope} {found : List InstanceId}
    (h : page.descendants matcher scope query = .ok found) :
    found = page.outline.filter fun i => page.Accepts matcher query scope i := by
  unfold descendants harvest at h
  split at h
  · cases h
  · exact (Except.ok.inj h).symm

theorem mem_of_descendants {scope : Scope} {found : List InstanceId}
    (h : page.descendants matcher scope query = .ok found) {i : InstanceId} :
    i ∈ found ↔ i ∈ page.outline ∧ page.Accepts matcher query scope i := by
  rw [eq_of_descendants h, List.mem_filter, decide_eq_true_iff]

/-- A search that fails names the query and the kind of an instance that it accepts and cannot read. -/
theorem of_descendants_error {scope : Scope} {e : QueryError}
    (h : page.descendants matcher scope query = .error e) :
    ∃ i ∈ page.outline, page.Accepts matcher query scope i ∧ ¬page.IsReadable i ∧
      e = .unreadableComponent query.name (page.kind i) := by
  unfold descendants harvest at h
  split at h
  · next i found =>
    have mem := List.mem_of_find?_eq_some found
    have holds := List.find?_some found
    rw [Bool.and_eq_true, decide_eq_true_iff, Bool.not_eq_true', decide_eq_false_iff_not] at holds
    exact ⟨i, (flatMap_reverse_perm _).mem_iff.mpr mem, holds.1, holds.2, (Except.error.inj h).symm⟩
  · cases h

/-- A search succeeds exactly when it can read every instance that it accepts. -/
theorem descendants_ok_iff {scope : Scope} :
    (∃ found, page.descendants matcher scope query = .ok found) ↔
      ∀ i ∈ page.outline, page.Accepts matcher query scope i → page.IsReadable i := by
  unfold descendants harvest outline
  simp only [(flatMap_reverse_perm _).mem_iff]
  split
  · next i found =>
    have mem := List.mem_of_find?_eq_some found
    have holds := List.find?_some found
    simp only [Bool.and_eq_true, decide_eq_true_iff, Bool.not_eq_true', decide_eq_false_iff_not] at holds
    exact ⟨fun ⟨_, h⟩ => (nomatch h), fun h => absurd (h i mem holds.1) holds.2⟩
  · next none =>
    have all := List.find?_eq_none.mp none
    simp only [Bool.and_eq_true, decide_eq_true_iff, Bool.not_eq_true', decide_eq_false_iff_not, not_and,
      not_not] at all
    exact ⟨fun _ => all, fun _ => ⟨_, rfl⟩⟩

/-- **Search filters one list.** A page has a list of instances, no two with one identity, such that
every search for components, in every scope and after any questions, gives the list less what the
query does not match and what lies outside the scope, or fails because one of those left cannot be
read. On a page whose instances have identities of their own the list holds the hosts of nodes and
what is above them, each once, from the top down and by the first node below. -/
theorem findDescendants_filters_outline (page : Page) :
    ∃ all : List InstanceId,
      (∀ (matcher : PropertyMatcher) (query : ComponentQuery) (scope : Scope) (ids : Identities),
        let kept := all.filter fun i => page.isMatch matcher query i && page.IsBelow scope i
        let result := (page.findDescendants matcher scope query ids).1
        (result = .ok kept ∨ ∃ kind, result = .error (.unreadableComponent query.name kind)) ∧
          ((∃ e, result = .error e) ↔
            ∃ i ∈ kept, (page.kind i).isIntrospectable (page.backing? i) = false)) ∧
      (∀ (i j : InstanceId) (ids : Identities), page.SameIdentity i j ↔
        (page.identify i ids).1 = (page.identify j (page.identify i ids).2).1) ∧
      all.Pairwise (fun i j => ¬page.SameIdentity i j) ∧
      (page.HasOwnIdentities →
        (∀ i, i ∈ all ↔ ∃ n ∈ page.nodes, page.IsAbove i n) ∧ all.Nodup ∧
          all.Pairwise (fun i j => j ∉ page.owners.after i) ∧
          all.Pairwise (fun i j => page.firstNode i ≤ page.firstNode j)) := by
  refine ⟨page.outline, fun matcher query scope ids => ?_, page.sameIdentity_iff, ?_, fun own => ?_⟩
  · intro kept result
    have eq : result = page.descendants matcher scope query := findDescendants_eq scope ids
    have mem : ∀ i, i ∈ kept ↔ i ∈ page.outline ∧ page.Accepts matcher query scope i := fun i => by
      simp [kept, Accepts]
    rw [eq]
    cases h : page.descendants matcher scope query with
    | ok found =>
      have same : found = kept := by
        rw [eq_of_descendants h]
        refine List.filter_congr fun i _ => ?_
        rw [Bool.eq_iff_iff, decide_eq_true_iff, Bool.and_eq_true, decide_eq_true_iff]
        rfl
      refine ⟨Or.inl (same ▸ rfl), fun ⟨_, e⟩ => (nomatch e), fun ⟨i, hi, unread⟩ => ?_⟩
      obtain ⟨hi, accepted⟩ := (mem i).mp hi
      have read := descendants_ok_iff.mp ⟨found, h⟩ i hi accepted
      exact absurd read (by simp [IsReadable, unread])
    | error e =>
      obtain ⟨i, hi, accepted, unread, rfl⟩ := of_descendants_error h
      exact ⟨Or.inr ⟨_, rfl⟩, fun _ => ⟨i, (mem i).mpr ⟨hi, accepted⟩, by simpa [IsReadable] using unread⟩,
        fun _ => ⟨_, rfl⟩⟩
  · exact List.pairwise_map.mp page.outline_keys_nodup
  · exact ⟨fun i => mem_outline own, page.outline_nodup,
      (outline_ordered own).imp fun h => h.not_above,
      (outline_ordered own).imp fun h => h.elim Nat.le_of_lt fun h => Nat.le_of_eq h.1⟩

/-- In the list in a body, which has identities of its own, every search for menus gives those among
all that is above a node. -/
theorem findDescendants_filters_outline_mirror : mirrorPage.HasOwnIdentities ∧
    ∃ all : List InstanceId, (∀ i, i ∈ all ↔ ∃ n ∈ mirrorPage.nodes, mirrorPage.IsAbove i n) ∧
      ∀ ids, (mirrorPage.findDescendants Predicate.matches .everywhere (.named "Menu") ids).1 =
        .ok (all.filter fun i => mirrorPage.isMatch Predicate.matches (.named "Menu") i) := by
  obtain ⟨all, filters, -, -, ordered⟩ := findDescendants_filters_outline mirrorPage
  have above := (ordered hasOwnIdentities_mirrorPage).1
  refine ⟨hasOwnIdentities_mirrorPage, all, above, fun ids => ?_⟩
  obtain ⟨found, fails⟩ := filters Predicate.matches (.named "Menu") .everywhere ids
  have readable : ∀ n ∈ mirrorPage.nodes, ∀ i ∈ mirrorPage.hostChain n,
      (mirrorPage.kind i).isIntrospectable (mirrorPage.backing? i) = true := by decide +kernel
  rcases found with found | ⟨kind, failed⟩
  · have everywhere : ∀ i, decide (mirrorPage.IsBelow .everywhere i) = true := fun _ =>
      decide_eq_true trivial
    simpa only [everywhere, Bool.and_true] using found
  · obtain ⟨i, hi, unread⟩ := fails.mp ⟨_, failed⟩
    obtain ⟨n, hn, host⟩ := (above i).mp (List.mem_of_mem_filter hi)
    exact absurd (readable n hn i host) (by simp [unread])

end Page

end PageQuery

/-
# The outline of a page

A search for components climbs from the host of each node in document order and stops at an identity
that an earlier climb, or the same one, came to. Which instances it comes to depends on the page
alone. Each climb read from its end, the climbs make the outline of the page, the list that every
search filters.

The outline holds each identity once. On a page whose instances have identities of their own, a climb
stops only where an earlier one went on to the top, so the outline holds every instance above a node;
the invariant is that the instances seen are closed under going up. They stand in the order of the
first node below them and, for one node, from the top down.

Key definitions: `Page.fresh`, `Page.climbs`, `Page.outline`, `Page.IsAbove`, `Page.firstNode`.
Key theorems: `Page.outline_keys_nodup`, `Page.mem_outline`, `Page.outline_ordered`.
-/
import Mathlib.Data.List.Nodup
import Mathlib.Data.Set.Function
import PageQuery.Component.Search
import PageQuery.Page.Table

namespace PageQuery

/-! ### Chains upward -/

namespace Links

variable {α : Type} (l : Links α)

/-- The list goes up from some handle, or is empty. -/
def IsUpward (chain : List α) : Prop := chain = [] ∨ ∃ a, chain = l.upward a

theorem isUpward_after (a : α) : l.IsUpward (l.after a) := by
  rw [after_eq]
  cases l.next a with
  | none => exact Or.inl rfl
  | some b => exact Or.inr ⟨b, rfl⟩

theorem IsUpward.cons {l : Links α} {a : α} {above : List α} (h : l.IsUpward (a :: above)) :
    above = l.after a ∧ l.IsUpward above := by
  rcases h with h | ⟨b, h⟩
  · cases h
  · obtain ⟨rfl, rfl⟩ := List.cons.inj h
    exact ⟨rfl, l.isUpward_after a⟩

/-- What comes after a handle on a chain is what its links pass through. -/
theorem IsUpward.pairwise {l : Links α} : ∀ {chain : List α}, l.IsUpward chain →
    chain.Pairwise fun a b => b ∈ l.after a
  | [], _ => .nil
  | a :: above, h => by
    obtain ⟨e, up⟩ := h.cons
    exact .cons (fun b hb => e ▸ hb) up.pairwise

theorem IsUpward.mem_of_mem_after {l : Links α} : ∀ {chain : List α}, l.IsUpward chain →
    ∀ {a b : α}, a ∈ chain → b ∈ l.after a → b ∈ chain
  | [], _, a, b, ha, _ => nomatch ha
  | c :: above, h, a, b, ha, hb => by
    obtain ⟨rfl, up⟩ := h.cons
    rcases List.mem_cons.mp ha with rfl | ha
    · exact List.mem_cons_of_mem _ hb
    · exact List.mem_cons_of_mem _ (up.mem_of_mem_after ha hb)

/-- Links lead to lower ranks however often they are followed. -/
theorem rank_lt_of_mem_after {a b : α} (h : b ∈ l.after a) : l.rank b < l.rank a := by
  induction n : l.rank a using Nat.strong_induction_on generalizing a with
  | _ n ih =>
    subst n
    rw [after_eq] at h
    cases e : l.next a with
    | none => rw [e] at h; cases h
    | some c =>
      have lower := l.descends e
      rw [e] at h
      rcases List.mem_cons.mp h with rfl | h
      · exact lower
      · exact (ih _ lower h rfl).trans lower

theorem not_mem_after_of_mem_after {a b : α} (h : b ∈ l.after a) : a ∉ l.after b := fun k =>
  Nat.lt_asymm (l.rank_lt_of_mem_after h) (l.rank_lt_of_mem_after k)

end Links

namespace Page

/-! ### Nodes within nodes -/

section within

variable {page : Page} {n e outer : NodeId}

theorem isWithin_iff : page.isWithin n e = true ↔ e = n ∨ e ∈ page.parents.after n := by
  rw [isWithin, List.contains_iff_mem, Links.upward, List.mem_cons]

@[simp] theorem isWithin_self (n : NodeId) : page.isWithin n n = true := isWithin_iff.mpr (.inl rfl)

/-- The nodes around one are the others that it is within. -/
theorem mem_parents_after_iff : n ∈ page.parents.after e ↔ e ≠ n ∧ page.isWithin e n = true := by
  rw [isWithin_iff]
  constructor
  · intro above
    refine ⟨?_, .inr above⟩
    rintro rfl
    exact Nat.lt_irrefl _ (page.parents.rank_lt_of_mem_after above)
  · rintro ⟨differ, same | above⟩
    · exact absurd same.symm differ
    · exact above

/-- What is around a node is around everything within it. -/
theorem mem_parents_after_of_isWithin (within : page.isWithin n e = true)
    (above : outer ∈ page.parents.after e) : outer ∈ page.parents.after n := by
  rcases isWithin_iff.mp within with rfl | inner
  · exact above
  · exact (page.parents.isUpward_after n).mem_of_mem_after inner above

end within

variable (page : Page)

theorem isUpward_hostChain (n : NodeId) : page.owners.IsUpward (page.hostChain n) := by
  unfold hostChain
  cases page.host? n with
  | none => exact Or.inl rfl
  | some host => exact Or.inr ⟨host, rfl⟩

/-! ### Climbs -/

/-- What a climb comes to before an identity that was seen, innermost first. -/
def fresh : List IdentityKey → List InstanceId → List InstanceId
  | _, [] => []
  | seen, i :: above =>
    if seen.contains (page.identityKey i) then []
    else i :: fresh (page.identityKey i :: seen) above

/-- The identities seen after a climb. -/
def seenAfter (seen : List IdentityKey) (found : List InstanceId) : List IdentityKey :=
  (found.map page.identityKey).reverse ++ seen

theorem seenAfter_cons (seen : List IdentityKey) (i : InstanceId) (found : List InstanceId) :
    page.seenAfter seen (i :: found) = page.seenAfter (page.identityKey i :: seen) found := by
  simp [seenAfter]

/-- The climbs from some nodes, one after another. -/
def climbs : List IdentityKey → List NodeId → List (List InstanceId)
  | _, [] => []
  | seen, n :: rest =>
    let found := page.fresh seen (page.hostChain n)
    found :: climbs (page.seenAfter seen found) rest

/-- The instances that climbs from all nodes come to, those around before those within. -/
def outline : List InstanceId := (page.climbs [] page.nodes).flatMap List.reverse

/-! ### Each identity stands once -/

theorem fresh_keys : ∀ (seen : List IdentityKey) (chain : List InstanceId),
    ((page.fresh seen chain).map page.identityKey).Nodup ∧
      ∀ i ∈ page.fresh seen chain, page.identityKey i ∉ seen
  | _, [] => by simp [fresh]
  | seen, i :: above => by
    unfold fresh
    split
    · simp
    · next h =>
      rw [List.contains_iff_mem] at h
      obtain ⟨nodup, unseen⟩ := fresh_keys (page.identityKey i :: seen) above
      refine ⟨List.nodup_cons.mpr ⟨fun mem => ?_, nodup⟩, fun j hj => ?_⟩
      · obtain ⟨j, hj, e⟩ := List.mem_map.mp mem
        exact unseen j hj (e ▸ List.mem_cons_self)
      · rcases List.mem_cons.mp hj with rfl | hj
        · exact h
        · exact fun mem => unseen j hj (List.mem_cons_of_mem _ mem)

theorem climbs_keys : ∀ (seen : List IdentityKey) (nodes : List NodeId),
    ((page.climbs seen nodes).flatten.map page.identityKey).Nodup ∧
      ∀ i ∈ (page.climbs seen nodes).flatten, page.identityKey i ∉ seen
  | _, [] => by simp [climbs]
  | seen, n :: rest => by
    obtain ⟨nodup, unseen⟩ := page.fresh_keys seen (page.hostChain n)
    obtain ⟨nodups, unseens⟩ :=
      climbs_keys (page.seenAfter seen (page.fresh seen (page.hostChain n))) rest
    unfold climbs
    simp only [List.flatten_cons, List.map_append, List.nodup_append, List.mem_append]
    refine ⟨⟨nodup, nodups, fun k hk l hl e => ?_⟩, fun i hi => ?_⟩
    · obtain ⟨i, hi, rfl⟩ := List.mem_map.mp hl
      exact unseens i hi (List.mem_append_left _ (List.mem_reverse.mpr (e ▸ hk)))
    · rcases hi with hi | hi
      · exact unseen i hi
      · exact fun mem => unseens i hi (List.mem_append_right _ mem)

/-- Read from their ends or not, climbs come to the same instances. -/
theorem flatMap_reverse_perm : ∀ climbs : List (List InstanceId),
    (climbs.flatMap List.reverse).Perm climbs.flatten
  | [] => .nil
  | c :: rest => by
    rw [List.flatMap_cons, List.flatten_cons]
    exact (List.reverse_perm c).append (flatMap_reverse_perm rest)

theorem outline_keys_nodup : (page.outline.map page.identityKey).Nodup :=
  ((flatMap_reverse_perm _).map _).nodup_iff.mpr (page.climbs_keys [] page.nodes).1

theorem outline_nodup : page.outline.Nodup := page.outline_keys_nodup.of_map

/-! ### Pages whose instances have identities of their own -/

/-- The instance is the host of a node or above it. -/
def IsAbove (i : InstanceId) (n : NodeId) : Prop := i ∈ page.hostChain n

instance (i : InstanceId) (n : NodeId) : Decidable (page.IsAbove i n) :=
  inferInstanceAs (Decidable (i ∈ page.hostChain n))

/-- The place in document order of the first node that an instance is above. -/
def firstNode (i : InstanceId) : Nat := page.nodes.findIdx fun n => page.IsAbove i n

/-- No two instances above nodes have one identity. -/
def HasOwnIdentities : Prop := Set.InjOn page.identityKey {i | ∃ n ∈ page.nodes, page.IsAbove i n}

/-- What a climb comes to when the chain repeats no identity and everything above a seen identity was
seen. `extra` are the identities of the climb itself. -/
theorem fresh_eq_filter (seen : List IdentityKey) : ∀ (extra : List IdentityKey) (chain : List InstanceId),
    (chain.map page.identityKey).Nodup → (∀ i ∈ chain, page.identityKey i ∉ extra) →
    chain.Pairwise (fun i a => page.identityKey i ∈ seen → page.identityKey a ∈ seen) →
    page.fresh (extra ++ seen) chain = chain.filter fun i => page.identityKey i ∉ seen
  | _, [], _, _, _ => rfl
  | extra, i :: above, nodup, apart, closed => by
    obtain ⟨hi, nodup⟩ := List.nodup_cons.mp nodup
    obtain ⟨ups, closed⟩ := List.pairwise_cons.mp closed
    have known : (extra ++ seen).contains (page.identityKey i) = true ↔ page.identityKey i ∈ seen := by
      rw [List.contains_iff_mem, List.mem_append, or_iff_right (apart i List.mem_cons_self)]
    unfold fresh
    by_cases h : page.identityKey i ∈ seen
    · rw [if_pos (known.mpr h), eq_comm, List.filter_eq_nil_iff]
      intro j hj
      rcases List.mem_cons.mp hj with rfl | hj
      · simpa using h
      · simpa using ups j hj h
    · have step := fresh_eq_filter seen (page.identityKey i :: extra) above nodup
        (fun j hj mem => (List.mem_cons.mp mem).elim
          (fun e => hi (List.mem_map.mpr ⟨j, hj, e⟩)) (apart j (List.mem_cons_of_mem _ hj)))
        closed
      rw [if_neg (mt known.mp h), List.filter_cons, if_pos (by simpa using h)]
      exact congrArg _ step

/-- The instances above a node and above none before it. -/
def newAt (done : List NodeId) (n : NodeId) : List InstanceId :=
  (page.hostChain n).filter fun i => ∀ m ∈ done, ¬page.IsAbove i m

/-- The instances that each node is the first one below. -/
def news : List NodeId → List NodeId → List (List InstanceId)
  | _, [] => []
  | done, n :: rest => page.newAt done n :: news (done ++ [n]) rest

/-- The identities are those of the instances above some nodes. -/
def Covers (seen : List IdentityKey) (done : List NodeId) : Prop :=
  ∀ k, k ∈ seen ↔ ∃ i, (∃ n ∈ done, page.IsAbove i n) ∧ page.identityKey i = k

variable {page}

theorem mem_newAt {done : List NodeId} {n : NodeId} {i : InstanceId} :
    i ∈ page.newAt done n ↔ page.IsAbove i n ∧ ∀ m ∈ done, ¬page.IsAbove i m := by
  rw [newAt, List.mem_filter, decide_eq_true_iff]
  rfl

/-- An instance above a node was seen by its identity exactly when it is above a node done. -/
theorem Covers.mem_iff (own : page.HasOwnIdentities) {seen : List IdentityKey} {done : List NodeId}
    {n : NodeId} (h : page.Covers seen done) (hd : ∀ m ∈ done, m ∈ page.nodes) (hn : n ∈ page.nodes)
    {i : InstanceId} (hi : page.IsAbove i n) :
    page.identityKey i ∈ seen ↔ ∃ m ∈ done, page.IsAbove i m := by
  constructor
  · intro mem
    obtain ⟨j, ⟨m, hm, hj⟩, e⟩ := (h _).mp mem
    have same : j = i := own ⟨m, hd m hm, hj⟩ ⟨n, hn, hi⟩ e
    exact ⟨m, hm, same ▸ hj⟩
  · rintro ⟨m, hm, hi⟩
    exact (h _).mpr ⟨i, ⟨m, hm, hi⟩, rfl⟩

theorem HasOwnIdentities.hostChain_keys_nodup (own : page.HasOwnIdentities) {n : NodeId}
    (hn : n ∈ page.nodes) : ((page.hostChain n).map page.identityKey).Nodup := by
  refine List.Nodup.map_on (fun i hi j hj e => own ⟨n, hn, hi⟩ ⟨n, hn, hj⟩ e) ?_
  refine (page.isUpward_hostChain n).pairwise.imp fun {i j} above same => ?_
  rw [same] at above
  exact page.owners.not_mem_after_of_mem_after above above

/-- With the instances that a node is the first below, those above the nodes up to it are seen. -/
theorem Covers.append {seen : List IdentityKey} {done : List NodeId} (h : page.Covers seen done)
    (n : NodeId) : page.Covers (page.seenAfter seen (page.newAt done n)) (done ++ [n]) := by
  intro k
  simp only [seenAfter, List.mem_append, List.mem_reverse, List.mem_map, mem_newAt, h k,
    List.mem_singleton]
  constructor
  · rintro (⟨i, ⟨hi, -⟩, rfl⟩ | ⟨i, ⟨m, hm, hi⟩, rfl⟩)
    · exact ⟨i, ⟨n, Or.inr rfl, hi⟩, rfl⟩
    · exact ⟨i, ⟨m, Or.inl hm, hi⟩, rfl⟩
  · rintro ⟨i, ⟨m, hm | rfl, hi⟩, rfl⟩
    · exact Or.inr ⟨i, ⟨m, hm, hi⟩, rfl⟩
    · by_cases old : ∃ p ∈ done, page.IsAbove i p
      · exact Or.inr ⟨i, old, rfl⟩
      · exact Or.inl ⟨i, ⟨hi, fun p hp above => old ⟨p, hp, above⟩⟩, rfl⟩

/-- The step of the climbs: if the identities seen are those above the nodes done, the climb from the
next node comes to the instances that it is the first below. -/
theorem Covers.fresh_eq_newAt (own : page.HasOwnIdentities) {seen : List IdentityKey}
    {done : List NodeId} {n : NodeId} (h : page.Covers seen done) (hd : ∀ m ∈ done, m ∈ page.nodes)
    (hn : n ∈ page.nodes) : page.fresh seen (page.hostChain n) = page.newAt done n := by
  have closed : (page.hostChain n).Pairwise
      fun i a => page.identityKey i ∈ seen → page.identityKey a ∈ seen := by
    refine (page.isUpward_hostChain n).pairwise.imp_of_mem fun {i a} hi ha above mem => ?_
    obtain ⟨m, hm, him⟩ := (h.mem_iff own hd hn hi).mp mem
    have inChain := (page.isUpward_hostChain m).mem_of_mem_after him above
    exact (h.mem_iff own hd hn ha).mpr ⟨m, hm, inChain⟩
  have filtered := page.fresh_eq_filter seen [] _ (own.hostChain_keys_nodup hn) (by simp) closed
  rw [List.nil_append] at filtered
  rw [filtered]
  refine List.filter_congr fun i hi => ?_
  rw [decide_eq_decide, h.mem_iff own hd hn hi, not_exists]
  simp only [not_and]

theorem climbs_eq_news (own : page.HasOwnIdentities) : ∀ {seen : List IdentityKey} {done rest : List NodeId},
    page.Covers seen done → (∀ m ∈ done ++ rest, m ∈ page.nodes) →
    page.climbs seen rest = page.news done rest
  | _, _, [], _, _ => rfl
  | seen, done, n :: rest, h, hm => by
    have done_mem : ∀ m ∈ done, m ∈ page.nodes := fun m hd => hm m (List.mem_append_left _ hd)
    have n_mem : n ∈ page.nodes := hm n (List.mem_append_right _ List.mem_cons_self)
    unfold climbs news
    rw [h.fresh_eq_newAt own done_mem n_mem]
    exact congrArg _ (climbs_eq_news own (h.append n) (by simpa using hm))

theorem outline_eq_news (own : page.HasOwnIdentities) :
    page.outline = (page.news [] page.nodes).flatMap List.reverse := by
  have start : page.Covers [] [] := by simp [Covers]
  unfold outline
  rw [climbs_eq_news own start (by simp)]

/-! ### What the outline holds, and its order -/

theorem mem_news {i : InstanceId} : ∀ {done rest : List NodeId},
    i ∈ (page.news done rest).flatMap List.reverse ↔
      (∃ n ∈ rest, page.IsAbove i n) ∧ ∀ m ∈ done, ¬page.IsAbove i m
  | done, [] => by simp [news]
  | done, n :: rest => by
    rw [news, List.flatMap_cons, List.mem_append, List.mem_reverse, mem_newAt, mem_news]
    by_cases hn : page.IsAbove i n <;> simp [hn, or_imp, forall_and]

/-- The outline holds no instance that is above no node, and on a page whose instances have identities
of their own it holds every one that is. -/
theorem mem_outline (own : page.HasOwnIdentities) {i : InstanceId} :
    i ∈ page.outline ↔ ∃ n ∈ page.nodes, page.IsAbove i n := by
  rw [outline_eq_news own, mem_news]
  simp

/-- The first instance is above an earlier node, or it is above the second and their first nodes are
the same. -/
def Precedes (page : Page) (i j : InstanceId) : Prop :=
  page.firstNode i < page.firstNode j ∨
    page.firstNode i = page.firstNode j ∧ i ∈ page.owners.after j

theorem firstNode_of_mem_newAt {done rest : List NodeId} {n : NodeId} {i : InstanceId}
    (e : page.nodes = done ++ n :: rest) (h : i ∈ page.newAt done n) : page.firstNode i = done.length := by
  obtain ⟨hi, unseen⟩ := mem_newAt.mp h
  unfold firstNode
  rw [e, List.findIdx_append, if_neg, List.findIdx_cons]
  · simp [hi]
  · intro lt
    obtain ⟨m, hm, above⟩ := List.findIdx_lt_length.mp lt
    exact unseen m hm (of_decide_eq_true above)

theorem le_firstNode {done rest : List NodeId} {i : InstanceId} (e : page.nodes = done ++ rest)
    (h : ∀ m ∈ done, ¬page.IsAbove i m) : done.length ≤ page.firstNode i := by
  unfold firstNode
  rw [e, List.findIdx_append, if_neg]
  · exact Nat.le_add_left _ _
  · intro lt
    obtain ⟨m, hm, above⟩ := List.findIdx_lt_length.mp lt
    exact h m hm (of_decide_eq_true above)

theorem news_pairwise : ∀ {done rest : List NodeId}, page.nodes = done ++ rest →
    ((page.news done rest).flatMap List.reverse).Pairwise page.Precedes
  | _, [], _ => .nil
  | done, n :: rest, e => by
    have e' : page.nodes = (done ++ [n]) ++ rest := by simpa using e
    rw [news, List.flatMap_cons, List.pairwise_append]
    refine ⟨?_, news_pairwise e', fun i hi j hj => Or.inl ?_⟩
    · rw [List.pairwise_reverse]
      have chain := (page.isUpward_hostChain n).pairwise.sublist
        (List.filter_sublist (p := fun i => ∀ m ∈ done, ¬page.IsAbove i m))
      exact chain.imp_of_mem fun {j i} hj hi above =>
        Or.inr ⟨(firstNode_of_mem_newAt e hi).trans (firstNode_of_mem_newAt e hj).symm, above⟩
    · have before := firstNode_of_mem_newAt e (List.mem_reverse.mp hi)
      have after := le_firstNode e' (mem_news.mp hj).2
      rw [List.length_append, List.length_singleton] at after
      omega

/-- The outline goes by the first node below, and for one node from the top down. -/
theorem outline_ordered (own : page.HasOwnIdentities) : page.outline.Pairwise page.Precedes := by
  rw [outline_eq_news own]
  exact news_pairwise rfl

/-- Who is above another is above every node that the other is above. -/
theorem firstNode_le_of_mem_after {i j : InstanceId} (h : j ∈ page.owners.after i) :
    page.firstNode j ≤ page.firstNode i := by
  unfold firstNode
  by_contra! lt
  have bound : page.nodes.findIdx (fun n => page.IsAbove i n) < page.nodes.length :=
    lt.trans_le List.findIdx_le_length
  have hi := List.findIdx_getElem (w := bound)
  rw [decide_eq_true_iff] at hi
  have hj := (page.isUpward_hostChain _).mem_of_mem_after hi h
  exact of_decide_eq_false (List.not_of_lt_findIdx lt) hj

/-- Of two instances in order, the second is not above the first. -/
theorem Precedes.not_above {i j : InstanceId} (h : page.Precedes i j) : j ∉ page.owners.after i := by
  intro above
  have := firstNode_le_of_mem_after above
  rcases h with h | ⟨-, h⟩
  · omega
  · exact page.owners.not_mem_after_of_mem_after above h

end Page

/-! ### A list in a body -/

/-- The call that gives the prop `self` of the first instance, as JSON. -/
def mirrorValue : Json := .object [("args", .array [.string "self"]),
  ("context", .object [("components", .array [.ofNat 0])]), ("fn", .string "prop")]

/-- A list in a body. The component that renders it has a prop whose value is the call that gives that
prop. -/
def mirrorPage : Page := Page.ofTables ⟨0⟩
  #[⟨some "body", [], none, "", none, .zero⟩, ⟨some "ul", [], some 0, "", some 1, .zero⟩,
    ⟨some "li", [], some 1, "one", some 2, .zero⟩, ⟨some "li", [], some 1, "two", some 3, .zero⟩]
  #[⟨none, none, .function, some "Menu", .object [("self", mirrorValue)], none⟩,
    ⟨some 0, none, .host, none, .null, some (.node ⟨1⟩)⟩,
    ⟨some 1, some 3, .host, none, .null, some (.node ⟨2⟩)⟩,
    ⟨some 1, none, .host, none, .null, some (.node ⟨3⟩)⟩]

theorem hasOwnIdentities_mirrorPage : mirrorPage.HasOwnIdentities := by
  have apart : ∀ n ∈ mirrorPage.nodes, ∀ i ∈ mirrorPage.hostChain n, ∀ m ∈ mirrorPage.nodes,
      ∀ j ∈ mirrorPage.hostChain m, mirrorPage.identityKey i = mirrorPage.identityKey j → i = j := by
    decide +kernel
  rintro i ⟨n, hn, hi⟩ j ⟨m, hm, hj⟩ same
  exact apart n hn i hi m hm j hj same

end PageQuery

/-
# Instances of a fixture's page are told apart

The instances below one parent are linked in the order in which they were made, so that of two of them
the earlier one is farther from the end of the chain. With the foundations of instances this makes
keys injective: two instances with something behind them differ in it, one with and one without differ
in the length of the path, and two without differ in their parents' keys or, below one parent, in
their places. The keys of all instances of the page lead back to something made, those of what is
absent or out of range to nothing.

So a resolver gives no two instances of the page one token, and a search for components drops none.

Key theorems: `FixturePage.Sound.identityKey_inj`, `FixturePage.Sound.identityKey_ne`,
`Fixture.hasOwnIdentities`, `Fixture.tokens_tell_instances_apart`.
-/
import PageQuery.Proofs.Component.Resolver
import PageQuery.Proofs.Fixture.Rendering

namespace PageQuery

namespace IdentityKey

variable {k l : IdentityKey} {m n : Nat}

@[simp] theorem child_inj : k.child m = l.child n ↔ k = l ∧ m = n := by
  obtain ⟨base?, path⟩ := k
  obtain ⟨other?, places⟩ := l
  simp only [child, IdentityKey.mk.injEq, List.append_singleton_inj, and_assoc]

theorem child_ne_of_base {base? : Option Backing} : k.child n ≠ ⟨base?, []⟩ := by
  simp [child]

end IdentityKey

/-! ### Siblings -/

namespace RenderedInstance

variable {instances : Array RenderedInstance} {m n k : Nat} {parent : InstanceId}

/-- The parent of the instance at a place. -/
def parentAt (instances : Array RenderedInstance) (place : Nat) : Option InstanceId :=
  (instances[place]?).bind (·.parent?)

theorem lt_size_of_parentAt (h : parentAt instances n = some parent) : n < instances.size := by
  obtain ⟨i, here, -⟩ := Option.bind_eq_some_iff.mp h
  exact (Array.getElem?_eq_some_iff.mp here).1

theorem any_parent_iff :
    ((instances[n]?).any fun j => j.parent? == some parent) = true ↔
      parentAt instances n = some parent := by
  unfold parentAt
  cases instances[n]? <;> simp

theorem nextSibling?_eq : nextSibling? instances m = (parentAt instances m).bind fun parent =>
    (List.range' (m + 1) (instances.size - (m + 1))).find? fun later =>
      (instances[later]?).any fun j => j.parent? == some parent := by
  unfold nextSibling? parentAt
  rw [List.range_eq_range', List.drop_range', Nat.mul_one, Nat.zero_add]
  cases instances[m]? with
  | none => rfl
  | some i => cases e : i.parent? <;> simp [e]

/-- The next sibling is the first later instance with the same parent. -/
theorem nextSibling?_eq_some_iff : nextSibling? instances m = some k ↔
    ∃ parent, parentAt instances m = some parent ∧ parentAt instances k = some parent ∧ m < k ∧
      ∀ n, m < n → n < k → parentAt instances n ≠ some parent := by
  rw [nextSibling?_eq, Option.bind_eq_some_iff]
  refine exists_congr fun parent => and_congr_right fun _ => ?_
  rw [List.find?_range'_eq_some, any_parent_iff]
  refine and_congr_right fun here => ?_
  have inside := lt_size_of_parentAt here
  refine and_congr ?_ (forall_congr' fun n => imp_congr Iff.rfl (imp_congr Iff.rfl ?_))
  · rw [List.mem_range'_1]
    omega
  · rw [Bool.not_eq_true', ← Bool.not_eq_true, any_parent_iff]

/-- An instance before another one below the same parent has a next sibling, not beyond the other. -/
theorem exists_nextSibling? (hm : parentAt instances m = some parent)
    (hn : parentAt instances n = some parent) (lt : m < n) :
    ∃ k, nextSibling? instances m = some k ∧ parentAt instances k = some parent ∧ k ≤ n := by
  cases e : nextSibling? instances m with
  | none =>
    rw [nextSibling?_eq, hm, Option.bind_some, List.find?_eq_none] at e
    have inside := lt_size_of_parentAt hn
    exact absurd (any_parent_iff.mpr hn) (e n (List.mem_range'_1.mpr (by omega)))
  | some k =>
    obtain ⟨other, same, hk, -, between⟩ := nextSibling?_eq_some_iff.mp e
    obtain rfl : parent = other := Option.some.inj (hm.symm.trans same)
    exact ⟨k, rfl, hk, not_lt.mp fun beyond => between n lt beyond hn⟩

end RenderedInstance

open RenderedInstance

namespace FixturePage

variable {p : FixturePage}

/-! ### What stands behind instances -/

/-- An element of the page stands where it is said to. -/
theorem serial_at_placeOf {n : Nat} (here : ∃ e ∈ p.elements, e.head.serial = n) :
    (p.elements[p.placeOf n]?).map (·.head.serial) = some n := by
  unfold placeOf
  cases e : p.elements.findIdx? fun e => e.head.serial == n with
  | none =>
    obtain ⟨a, mem, same⟩ := here
    exact absurd same (by simpa using Array.findIdx?_eq_none_iff.mp e a mem)
  | some place =>
    obtain ⟨inside, same, -⟩ := Array.findIdx?_eq_some_iff_getElem.mp e
    rw [Option.getD_some, Array.getElem?_eq_getElem inside]
    exact congrArg some (beq_iff_eq.mp same)

/-- What is found under two places of a list, but once in all, is found under one. -/
theorem eq_of_nodup_filterMap {α β : Type} {f : α → Option β} {l : List α} (h : (l.filterMap f).Nodup)
    {m n : Nat} {b : β} (hm : (l[m]?).bind f = some b) (hn : (l[n]?).bind f = some b) : m = n := by
  have apart := List.pairwise_iff_getElem.mp (List.pairwise_filterMap.mp h)
  obtain ⟨x, hx, fx⟩ := Option.bind_eq_some_iff.mp hm
  obtain ⟨y, hy, fy⟩ := Option.bind_eq_some_iff.mp hn
  obtain ⟨lm, rfl⟩ := List.getElem?_eq_some_iff.mp hx
  obtain ⟨ln, rfl⟩ := List.getElem?_eq_some_iff.mp hy
  rcases lt_trichotomy m n with lt | same | gt
  · exact absurd rfl (apart m n lm ln lt b fx b fy)
  · exact same
  · exact absurd rfl (apart n m ln lm gt b fy b fx)

namespace Sound

/-- Different elements and objects stay different on the page. -/
theorem backingOf_inj (sound : p.Sound) {i j : RenderedInstance} (hi : i ∈ p.instances)
    (hj : j ∈ p.instances) {b c : RenderedBacking} (hb : i.backing? = some b) (hc : j.backing? = some c)
    (same : p.backingOf b = p.backingOf c) : b = c := by
  cases b with
  | element m =>
    cases c with
    | element n =>
      have place : p.placeOf m = p.placeOf n := by simpa [backingOf] using same
      have first := serial_at_placeOf (sound.placed i hi m hb)
      have second := serial_at_placeOf (sound.placed j hj n hc)
      rw [place, second] at first
      exact congrArg _ (Option.some.inj first).symm
    | object key => cases same
  | object key =>
    cases c with
    | element n => cases same
    | object other => exact congrArg _ (Backing.object.inj same)

/-- Nothing stands behind two instances of the page. -/
theorem backing?_inj (sound : p.Sound) {i j : InstanceId} {b : Backing}
    (hi : p.toPage.backing? i = some b) (hj : p.toPage.backing? j = some b) : i = j := by
  obtain ⟨c, hc, rfl⟩ := Option.map_eq_some_iff.mp hi
  obtain ⟨d, hd, same⟩ := Option.map_eq_some_iff.mp hj
  obtain ⟨x, hx, behind⟩ := Option.bind_eq_some_iff.mp hc
  obtain ⟨y, hy, behind'⟩ := Option.bind_eq_some_iff.mp hd
  obtain rfl : d = c := sound.backingOf_inj (Array.mem_of_getElem? hy) (Array.mem_of_getElem? hx)
    behind' behind same
  have index : i.index = j.index := eq_of_nodup_filterMap sound.distinct
    (by rw [Array.getElem?_toList]; exact hc) (by rw [Array.getElem?_toList]; exact hd)
  exact congrArg InstanceId.mk index

/-! ### Links -/

/-- No owner link is left out: each leads to an earlier instance. -/
theorem owners_next (sound : p.Sound) (i : InstanceId) :
    p.toPage.owners.next i = parentAt p.instances i.index := by
  have falls : ∀ m n : Nat, (p.instances.map fun x => x.parent?.map (·.index))[m]? = some (some n) →
      n < m := by
    intro m n h
    rw [Array.getElem?_map] at h
    obtain ⟨x, hx, entry⟩ := Option.map_eq_some_iff.mp h
    obtain ⟨parent, up, rfl⟩ := Option.map_eq_some_iff.mp entry
    have founded := sound.founded m x hx
    unfold RenderedInstance.FoundedAt at founded
    rw [up] at founded
    exact founded
  have next := Links.ofTable_next falls (fun m h => le_of_lt h) i.index
  show ((Links.ofTable _).next i.index).map InstanceId.mk = _
  rw [next, Array.getElem?_map, parentAt]
  cases p.instances[i.index]? with
  | none => rfl
  | some x => cases e : x.parent? <;> simp [e]

end Sound

/-- No sibling link is left out: each leads to a later instance. -/
theorem siblings_next (p : FixturePage) (i : InstanceId) :
    p.toPage.siblings.next i = (nextSibling? p.instances i.index).map InstanceId.mk := by
  have size : ((List.range p.instances.size).map (nextSibling? p.instances)).toArray.size =
      p.instances.size := by simp
  have entry : ∀ m, ((List.range p.instances.size).map (nextSibling? p.instances)).toArray[m]?.join =
      nextSibling? p.instances m := by
    intro m
    by_cases inside : m < p.instances.size
    · simp [inside]
    · have none : parentAt p.instances m = none := by simp [parentAt, inside]
      rw [nextSibling?_eq, none]
      simp [inside]
  have falls : ∀ m n : Nat, ((List.range p.instances.size).map
      (nextSibling? p.instances)).toArray[m]? = some (some n) →
        p.instances.size - n < p.instances.size - m := by
    intro m n h
    have next : nextSibling? p.instances m = some n := by rw [← entry, h]; rfl
    obtain ⟨parent, -, there, lt, -⟩ := nextSibling?_eq_some_iff.mp next
    have inside := lt_size_of_parentAt there
    omega
  have next := Links.ofTable_next falls (fun m _ => by rw [size]; omega) i.index
  show ((Links.ofTable _).next i.index).map InstanceId.mk = _
  rw [next, entry]

/-- Of two instances below one parent, the earlier one is farther from the end. -/
theorem siblingIndex_lt {parent : InstanceId} {n : Nat} (hn : parentAt p.instances n = some parent) :
    ∀ {m : Nat}, parentAt p.instances m = some parent → m < n →
      p.toPage.siblingIndex ⟨n⟩ < p.toPage.siblingIndex ⟨m⟩
  | m, hm, lt => by
    obtain ⟨k, next, hk, le⟩ := exists_nextSibling? hm hn lt
    obtain ⟨-, -, -, before, -⟩ := nextSibling?_eq_some_iff.mp next
    have link : p.toPage.siblings.next ⟨m⟩ = some ⟨k⟩ := by rw [siblings_next, next, Option.map_some]
    have one_more : p.toPage.siblingIndex ⟨m⟩ = p.toPage.siblingIndex ⟨k⟩ + 1 :=
      p.toPage.siblings.distance_of_next link
    rcases Nat.lt_or_eq_of_le le with further | rfl
    · have rest := siblingIndex_lt hn hk further
      omega
    · omega
termination_by m => n - m

/-! ### Keys -/

/-- An instance without something behind it has an earlier parent, and its key is the parent's with
its place. -/
theorem Sound.unbacked (sound : p.Sound) {m : Nat} (present : m < p.instances.size)
    (bare : p.toPage.backing? ⟨m⟩ = none) :
    ∃ parent, parentAt p.instances m = some parent ∧ parent.index < m ∧
      p.toPage.identityKey ⟨m⟩ = (p.toPage.identityKey parent).child (p.toPage.siblingIndex ⟨m⟩) := by
  obtain ⟨i, here⟩ : ∃ i, p.instances[m]? = some i := ⟨_, Array.getElem?_eq_getElem present⟩
  have founded := sound.founded m i here
  have behind : i.backing? = none := by
    have none : ((p.instances[m]?).bind (·.backing?)).map p.backingOf = none := bare
    rw [here] at none
    exact Option.map_eq_none_iff.mp none
  unfold RenderedInstance.FoundedAt at founded
  cases up : i.parent? with
  | none => rw [up, behind] at founded; cases founded
  | some parent =>
    rw [up] at founded
    have parent_eq : parentAt p.instances m = some parent := by rw [parentAt, here]; exact up
    exact ⟨parent, parent_eq, founded,
      p.toPage.identityKey_of_parent bare ((sound.owners_next ⟨m⟩).trans parent_eq)⟩

/-- The key of an instance of the page leads back to an element or an object. -/
theorem Sound.base?_isSome (sound : p.Sound) {m : Nat} (present : m < p.instances.size) :
    (p.toPage.identityKey ⟨m⟩).base?.isSome := by
  induction m using Nat.strong_induction_on with
  | _ m ih =>
    cases e : p.toPage.backing? ⟨m⟩ with
    | some b => rw [p.toPage.identityKey_of_backed e]; rfl
    | none =>
      obtain ⟨parent, -, earlier, key⟩ := sound.unbacked present e
      rw [key]
      exact ih parent.index earlier (earlier.trans present)

/-- **Keys tell the instances of a page apart.** By induction along the parents, which are earlier. -/
theorem Sound.identityKey_inj (sound : p.Sound) {m n : Nat} (hm : m < p.instances.size)
    (hn : n < p.instances.size) (same : p.toPage.identityKey ⟨m⟩ = p.toPage.identityKey ⟨n⟩) :
    m = n := by
  induction m using Nat.strong_induction_on generalizing n with
  | _ m ih =>
    cases em : p.toPage.backing? ⟨m⟩ with
    | some b =>
      rw [p.toPage.identityKey_of_backed em] at same
      cases en : p.toPage.backing? ⟨n⟩ with
      | some c =>
        rw [p.toPage.identityKey_of_backed en] at same
        cases same
        exact congrArg InstanceId.index (sound.backing?_inj em en)
      | none =>
        obtain ⟨_, -, -, key⟩ := sound.unbacked hn en
        exact absurd (same.trans key).symm IdentityKey.child_ne_of_base
    | none =>
      obtain ⟨parent, up, earlier, key⟩ := sound.unbacked hm em
      cases en : p.toPage.backing? ⟨n⟩ with
      | some c =>
        rw [p.toPage.identityKey_of_backed en] at same
        exact absurd (key.symm.trans same) IdentityKey.child_ne_of_base
      | none =>
        obtain ⟨parent', up', earlier', key'⟩ := sound.unbacked hn en
        obtain ⟨keys, places⟩ := IdentityKey.child_inj.mp (key.symm.trans (same.trans key'))
        -- the parents are one, so the two are told apart by their places
        have index := ih parent.index earlier (earlier.trans hm) (earlier'.trans hn) keys
        obtain rfl : parent = parent' := congrArg InstanceId.mk index
        rcases lt_trichotomy m n with lt | eq | gt
        · exact absurd places (siblingIndex_lt up' up lt).ne'
        · exact eq
        · exact absurd places (siblingIndex_lt up up' gt).ne

/-- The key of an instance that is not one of the page leads back to nothing. -/
theorem Sound.base?_of_absent (sound : p.Sound) {i : InstanceId} (out : ¬i.index < p.instances.size) :
    (p.toPage.identityKey i).base? = none := by
  have none : p.instances[i.index]? = none := Array.getElem?_eq_none (not_lt.mp out)
  have bare : p.toPage.backing? i = .none := by
    show ((p.instances[i.index]?).bind (·.backing?)).map p.backingOf = _
    rw [none]
    rfl
  have top : p.toPage.owners.next i = .none := by
    rw [sound.owners_next, parentAt, none]
    rfl
  rw [p.toPage.identityKey_of_top bare top]
  rfl

/-- The key of an instance of the page is that of nothing else: no other instance, be it of the page or
out of range, and nothing that is absent. -/
theorem Sound.identityKey_ne (sound : p.Sound) {i : InstanceId} (present : i.index < p.instances.size)
    {other : Option InstanceId} (differ : other ≠ some i) :
    p.toPage.identityKey i ≠ other.elim .absent p.toPage.identityKey := by
  have founded := sound.base?_isSome present
  intro same
  rw [same] at founded
  cases other with
  | none => cases founded
  | some j =>
    by_cases inside : j.index < p.instances.size
    · have index := sound.identityKey_inj present inside same
      exact differ (congrArg (some ∘ InstanceId.mk) index.symm)
    · have base := sound.base?_of_absent inside
      rw [Option.elim_some, base] at founded
      cases founded

/-- The instances above a node are instances of the page. -/
theorem Sound.present_of_hostChain (sound : p.Sound) {n : NodeId} :
    ∀ i ∈ p.toPage.hostChain n, i.index < p.instances.size := by
  have up : ∀ i j, p.toPage.owners.next i = some j → j.index < p.instances.size := by
    intro i j next
    rw [sound.owners_next] at next
    obtain ⟨x, here, parent⟩ := Option.bind_eq_some_iff.mp next
    have founded := sound.founded i.index x here
    unfold RenderedInstance.FoundedAt at founded
    rw [parent] at founded
    exact founded.trans (lt_size_of_parentAt next)
  unfold Page.hostChain
  cases e : p.toPage.host? n with
  | none => nofun
  | some host =>
    obtain ⟨element, here, hosted⟩ := Option.bind_eq_some_iff.mp e
    have known := sound.hosted element (Array.mem_of_getElem? here) host hosted
    exact List.forall_mem_cons.mpr
      ⟨known, p.toPage.owners.forall_mem_follow up (p.toPage.owners.rank host) host⟩

end FixturePage

namespace Fixture

variable {f : Fixture} {r : Rendering}

/-- On the page of a fixture, the instances above nodes have identities of their own. -/
theorem hasOwnIdentities (h : f.render = .ok r) : r.page.toPage.HasOwnIdentities := by
  have sound := render_sound h
  rintro i ⟨n, -, hi⟩ j ⟨m, -, hj⟩ same
  have index := sound.identityKey_inj (sound.present_of_hostChain i hi)
    (sound.present_of_hostChain j hj) same
  exact congrArg InstanceId.mk index

end Fixture

/-! ### Tokens -/

/-- The instance, if any, whose token is asked for; nothing for other requests. -/
def IdentityRequest.instance? : IdentityRequest → Option (Option InstanceId)
  | .ofInstance i => some (some i)
  | .ofOptional i? => some i?
  | .ofNode _ => none
  | .siblingIndex _ => none

theorem IdentityRequest.key?_of_instance? {page : Page} {request : IdentityRequest}
    {i? : Option InstanceId} (h : request.instance? = some i?) :
    request.key? page = some (i?.elim .absent page.identityKey) := by
  match request, h with
  | .ofInstance i, rfl => rfl
  | .ofOptional (some i), rfl => rfl
  | .ofOptional none, rfl => rfl

/-- **Tokens tell the instances of a fixture's page apart.** Whatever a resolver is asked, and in which
order, the token of an instance of the page is never that of another instance, of the page or out of
range, or of an absent one. This is so for every fixture that renders, also where its markup reads as
another tree. -/
theorem Fixture.tokens_tell_instances_apart {f : Fixture} {r : Rendering} (h : f.render = .ok r)
    (requests : List IdentityRequest) (m n : Nat) {i : InstanceId} {other : Option InstanceId}
    (present : i.index < r.page.instances.size) (differ : other ≠ some i)
    (first : (requests[m]?).bind IdentityRequest.instance? = some (some i))
    (second : (requests[n]?).bind IdentityRequest.instance? = some other) :
    ∃ t u, (Resolver.answers r.page.toPage requests)[m]? = some (.token t) ∧
      (Resolver.answers r.page.toPage requests)[n]? = some (.token u) ∧ t ≠ u := by
  have keyed : ∀ {place : Nat} {i?}, (requests[place]?).bind IdentityRequest.instance? = some i? →
      (requests[place]?).bind (IdentityRequest.key? r.page.toPage) =
        some (i?.elim .absent r.page.toPage.identityKey) := by
    intro place i? asked
    obtain ⟨request, here, instance?⟩ := Option.bind_eq_some_iff.mp asked
    rw [here, Option.bind_some]
    exact IdentityRequest.key?_of_instance? instance?
  obtain ⟨t, u, answer, answer', same⟩ :=
    Resolver.tokens_eq_iff r.page.toPage (keyed first) (keyed second)
  have apart := (render_sound h).identityKey_ne present differ
  exact ⟨t, u, answer, answer', fun e => apart (same.mp e)⟩

/-- A paragraph that is left at once for the box in it, with a card between, and in the body a card that
shows nothing. -/
def cards : Fixture := ⟨[], [.element "p" [] none none [.component "Card" .function none .null
  [.element "div" [] none none []]], .portal "body" [.component "Card" .memo none .null []]]⟩

/-- The fixture renders and does not load. Its second card is told from the first, from what is absent
and from an instance out of range. -/
theorem Fixture.tokens_tell_instances_apart_cards :
    cards.load.toOption = none ∧ ∃ r, cards.render = .ok r ∧ ∀ (n : Nat), n < 3 → ∃ t u,
      let answers := Resolver.answers r.page.toPage
        [.ofInstance ⟨2⟩, .ofOptional none, .ofInstance ⟨9⟩, .ofInstance ⟨5⟩]
      answers[3]? = some (.token t) ∧ answers[n]? = some (.token u) ∧ t ≠ u := by
  obtain ⟨r, rendered⟩ : ∃ r, cards.render = .ok r := exists_ok_of_toBool (by decide +kernel)
  have size : r.page.instances.size = 6 := by
    have known : cards.render.toOption.map (·.page.instances.size) = some 6 := by decide +kernel
    rw [rendered] at known
    exact Option.some.inj known
  have apart := fun n other => @tokens_tell_instances_apart cards r rendered
    [.ofInstance ⟨2⟩, .ofOptional none, .ofInstance ⟨9⟩, .ofInstance ⟨5⟩] 3 n ⟨5⟩ other
    (by rw [size]; decide)
  refine ⟨by decide +kernel, r, rendered, fun n hn => ?_⟩
  match n, hn with
  | 0, _ => exact apart 0 (some ⟨2⟩) (by decide) rfl rfl
  | 1, _ => exact apart 1 none (by decide) rfl rfl
  | 2, _ => exact apart 2 (some ⟨9⟩) (by decide) rfl rfl

end PageQuery

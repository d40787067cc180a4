/-
# What searches remember does not show

A search that compares remembered tokens runs beside one that compares identities and remembers nothing but
the numbers of objects. From a resolver that remembers rightly and its table of objects, they come to the
same result or failure and to the same table, and what is remembered is right again (`Beside`). Tokens are
texts of identities, and texts tell identities apart, so every comparison comes out alike.

What a search in a scope remembers of the instances that it climbed past is what climbing on from them would
come to again (`Recalls`): all those above up to the one that decides have been asked for, so they are not
numbered anew.

Key definitions: `Beside`, `Adapter.Recalls`, `Adapter.EndsAs`.
Key theorems: `Beside.bind`, `Adapter.climbToScope_beside`, `Adapter.findDescendants_beside`,
`Adapter.searches_end`.
-/
import PageQuery.Component.Adapter
import PageQuery.Proofs.Component.Resolver

namespace PageQuery

variable {page : Page} {ids : Identities} {α β γ δ : Type}

/-! ### Two searches side by side -/

/-- From every resolver that remembers rightly and whose table has grown out of the first, both come to the
same table, what is remembered is right, and the values are related. -/
def Beside (page : Page) (ids : Identities) (m : StateM Resolver α) (n : StateM Identities β)
    (R : α → β → Identities → Prop) : Prop :=
  ∀ r : Resolver, r.Sound page → ids.Grows r.identities →
    (m r).2.identities = (n r.identities).2 ∧ (m r).2.Sound page ∧
      r.identities.Grows (n r.identities).2 ∧ R (m r).1 (n r.identities).1 (n r.identities).2

namespace Beside

variable {R : α → β → Identities → Prop} {S : γ → δ → Identities → Prop}
  {m : StateM Resolver α} {n : StateM Identities β}

theorem pure {a : α} {b : β} (h : ∀ later, ids.Grows later → R a b later) :
    Beside page ids (pure a) (pure b) R := fun _ sound g => ⟨rfl, sound, .refl _, h _ g⟩

theorem bind {f : α → StateM Resolver γ} {g : β → StateM Identities δ} (first : Beside page ids m n R)
    (rest : ∀ later a b, ids.Grows later → R a b later → Beside page later (f a) (g b) S) :
    Beside page ids (m >>= f) (n >>= g) S := by
  intro r sound grown
  obtain ⟨same, kept, more, related⟩ := first r sound grown
  have start : (n r.identities).2.Grows (m r).2.identities := same ▸ .refl _
  obtain ⟨same', kept', more', related'⟩ := rest _ _ _ (grown.trans more) related _ kept start
  rw [same] at same' more' related'
  exact ⟨same', kept', more.trans more', related'⟩

theorem map {S : γ → β → Identities → Prop} {f : α → γ} (h : Beside page ids m n R)
    (related : ∀ later a b, ids.Grows later → R a b later → S (f a) b later) :
    Beside page ids (m >>= fun a => Pure.pure (f a)) n S := by
  intro r sound grown
  obtain ⟨same, kept, more, first⟩ := h r sound grown
  exact ⟨same, kept, more, related _ _ _ (grown.trans more) first⟩

/-- A token and the identity that it is the text of. -/
theorem identify (i : InstanceId) : Beside page ids (Resolver.ofInstance page i) (page.identify i)
    fun token t later => token = t.text ∧ later.Names (page.identityKey i) t := by
  intro r sound _
  obtain ⟨token, same, kept⟩ := Resolver.ofInstance_eq sound i
  exact ⟨same, kept, Identities.identify_grows _ _, token, Identities.names_identify _ _⟩

end Beside

/-- Both values are related, or both are the same failure. -/
def EndAlike (R : α → β → Identities → Prop) :
    Except QueryError α → Except QueryError β → Identities → Prop
  | .ok a, .ok b, later => R a b later
  | .error e, .error e', _ => e = e'
  | .ok _, .error _, _ => False
  | .error _, .ok _, _ => False

/-- The searches come to related values or to the same failure. -/
def SearchesBeside (page : Page) (ids : Identities) (m : RecallingSearch α) (n : Search β)
    (R : α → β → Identities → Prop) : Prop := Beside page ids m.run n.run (EndAlike R)

namespace SearchesBeside

variable {R : α → β → Identities → Prop} {S : γ → δ → Identities → Prop}
  {m : RecallingSearch α} {n : Search β} {f : α → RecallingSearch γ} {g : β → Search δ}

theorem pure {a : α} {b : β} (h : ∀ later, ids.Grows later → R a b later) :
    SearchesBeside page ids (Pure.pure a) (Pure.pure b) R := Beside.pure h

theorem throw (e : QueryError) :
    SearchesBeside page ids (throw e : RecallingSearch α) (throw e : Search β) R :=
  Beside.pure fun _ _ => rfl

theorem bind (first : SearchesBeside page ids m n R)
    (rest : ∀ later a b, ids.Grows later → R a b later → SearchesBeside page later (f a) (g b) S) :
    SearchesBeside page ids (m >>= f) (n >>= g) S := by
  refine Beside.bind (f := ExceptT.bindCont f) (g := ExceptT.bindCont g) first ?_
  intro later x y grown related
  cases x with
  | error e =>
    cases y with
    | error e' => exact Beside.pure fun _ _ => related
    | ok b => cases related
  | ok a =>
    cases y with
    | error e' => cases related
    | ok b => exact rest later a b grown related

theorem bind_lift {m : StateM Resolver α} {n : StateM Identities β} (first : Beside page ids m n R)
    (rest : ∀ later a b, ids.Grows later → R a b later → SearchesBeside page later (f a) (g b) S) :
    SearchesBeside page ids (liftM m >>= f) (liftM n >>= g) S :=
  Beside.bind (f := fun a => (f a).run) (g := fun b => (g b).run) first rest

theorem lift {m : StateM Resolver α} {n : StateM Identities β} (h : Beside page ids m n R) :
    SearchesBeside page ids (liftM m) (liftM n) R := fun r sound grown => h r sound grown

end SearchesBeside

/-- The two searches come to the same value. -/
abbrev Alike : α → α → Identities → Prop := fun a b _ => a = b

/-- Tokens are the texts of identities. -/
abbrev Texts : List String → List Identity → Identities → Prop := fun tokens ts _ =>
  tokens = ts.map Identity.text

namespace Identity

@[simp] theorem text_beq (t u : Identity) : (t.text == u.text) = (t == u) := by
  rw [Bool.eq_iff_iff, beq_iff_eq, beq_iff_eq, text_inj]

@[simp] theorem contains_map_text (ts : List Identity) (t : Identity) :
    (ts.map text).contains t.text = ts.contains t := by
  induction ts with
  | nil => rfl
  | cons u ts ih => rw [List.map_cons, List.contains_cons, List.contains_cons, ih, text_beq]

end Identity

namespace Adapter

variable {matcher : PropertyMatcher} {query : ComponentQuery}

/-! ### Elements -/

theorem anyTold_beside {accept : String → Bool} {accepts : Identity → Bool}
    (agree : ∀ t, accept t.text = accepts t) : ∀ (instances : List InstanceId) {ids : Identities},
    Beside page ids (anyTold page accept instances) (page.anyIdentified accepts instances) Alike
  | [], _ => .pure fun _ _ => rfl
  | i :: rest, ids => by
    refine (Beside.identify i).bind fun later token t _ told => ?_
    obtain ⟨rfl, -⟩ := told
    rw [agree]
    by_cases accepted : accepts t = true
    · rw [if_pos accepted, if_pos accepted]
      exact .pure fun _ _ => rfl
    · rw [if_neg accepted, if_neg accepted]
      exact anyTold_beside agree rest

theorem ownedAmong_beside (target : Identity) : ∀ (nodes : List NodeId) {ids : Identities},
    Beside page ids (ownedAmong page target.text nodes) (page.ownedAmong target nodes) Alike
  | [], _ => .pure fun _ _ => rfl
  | n :: rest, ids => by
    refine (anyTold_beside (fun t => t.text_beq target) (page.ownerChain n)).bind ?_
    rintro later owned _ _ rfl
    refine (ownedAmong_beside target rest).bind ?_
    rintro last more _ _ rfl
    exact .pure fun _ _ => rfl

theorem elementsOf_beside (i : InstanceId) :
    Beside page ids (elementsOf page i) (page.elementsOf i) Alike := by
  refine (Beside.identify i).bind fun later token t _ told => ?_
  obtain ⟨rfl, -⟩ := told
  exact ownedAmong_beside t page.nodes

theorem elementsOfEach_beside : ∀ (instances : List InstanceId) {ids : Identities},
    Beside page ids (elementsOfEach page instances) (page.elementsOfEach instances) Alike
  | [], _ => .pure fun _ _ => rfl
  | i :: rest, ids => by
    refine (elementsOf_beside i).bind ?_
    rintro later elements _ _ rfl
    refine (elementsOfEach_beside rest).bind ?_
    rintro last more _ _ rfl
    exact .pure fun _ _ => rfl

theorem elementsOfAll_beside (instances : List InstanceId) :
    Beside page ids (elementsOfAll page instances) (page.elementsOfAll instances) Alike := by
  refine (elementsOfEach_beside instances).bind ?_
  rintro later elements _ _ rfl
  exact .pure fun _ _ => rfl

/-! ### Structural search -/

theorem orSearchFailure_beside (r : Except SearchError α) :
    SearchesBeside page ids (orSearchFailure r) (Page.orSearchFailure r) Alike := by
  cases r with
  | ok a => exact .pure fun _ _ => rfl
  | error e => exact .throw _

theorem searchWithinEach_beside (selector : String) : ∀ (instances : List InstanceId) {ids : Identities},
    SearchesBeside page ids (searchWithinEach page selector instances)
      (page.searchWithinEach selector instances) Alike
  | [], _ => .pure fun _ _ => rfl
  | i :: rest, ids => by
    refine .bind_lift (elementsOf_beside i) ?_
    rintro later elements _ _ rfl
    refine (orSearchFailure_beside _).bind ?_
    rintro last found _ _ rfl
    refine (searchWithinEach_beside selector rest).bind ?_
    rintro final more _ _ rfl
    exact .pure fun _ _ => rfl

theorem searchWithin_beside (instances : List InstanceId) (selector : String) :
    SearchesBeside page ids (searchWithin page instances selector) (page.searchWithin instances selector)
      Alike := by
  refine (searchWithinEach_beside selector instances).bind ?_
  rintro later found _ _ rfl
  exact .pure fun _ _ => rfl

/-! ### What is remembered of a scope -/

/-- From the table on, climbing through the instances above comes to the answer and numbers no object. -/
def Decided (page : Page) (ids : Identities) (scope : List Identity) (above : List InstanceId)
    (answer : Bool) : Prop :=
  ∀ later, ids.Grows later → page.anyIdentified scope.contains above later = (answer, later)

/-- All that is remembered of a scope is what climbing comes to again. -/
def Recalls (page : Page) (ids : Identities) (scope : List Identity) (memo : ScopeMemo) : Prop :=
  ∀ i answer, memo.lookup i = some answer → Decided page ids scope (page.owners.after i) answer

theorem Decided.grow {later : Identities} {scope : List Identity} {above : List InstanceId} {answer : Bool}
    (h : Decided page ids scope above answer) (g : ids.Grows later) :
    Decided page later scope above answer := fun last k => h last (g.trans k)

theorem Recalls.grow {later : Identities} {scope : List Identity} {memo : ScopeMemo}
    (h : Recalls page ids scope memo) (g : ids.Grows later) : Recalls page later scope memo :=
  fun i answer known => (h i answer known).grow g

theorem recalls_nil {scope : List Identity} : Recalls page ids scope [] := nofun

theorem decided_nil {scope : List Identity} : Decided page ids scope [] false := fun _ _ => rfl

/-- An instance that has an identity already is asked for again without effect. -/
theorem decided_cons {scope : List Identity} {i : InstanceId} {rest : List InstanceId} {t : Identity}
    {answer : Bool} (named : ids.Names (page.identityKey i) t)
    (decided : scope.contains t = true ∧ answer = true ∨
      scope.contains t = false ∧ Decided page ids scope rest answer) :
    Decided page ids scope (i :: rest) answer := by
  intro later grown
  have again : page.identify i later = (t, later) := IdentityKey.identify_of_names (named.grow grown)
  have step : page.anyIdentified scope.contains (i :: rest) later =
      (if scope.contains t = true then pure true else page.anyIdentified scope.contains rest :
        StateM Identities Bool) later := by
    show (page.identify i >>= fun u => if scope.contains u = true then pure true
      else page.anyIdentified scope.contains rest : StateM Identities Bool) later = _
    show (if scope.contains (page.identify i later).1 = true then pure true
      else page.anyIdentified scope.contains rest : StateM Identities Bool) (page.identify i later).2 = _
    rw [again]
  rw [step]
  rcases decided with ⟨within, rfl⟩ | ⟨outside, further⟩
  · rw [if_pos within]
    rfl
  · rw [if_neg (Bool.not_eq_true _ ▸ outside)]
    exact further later grown

/-- **Climbing up to what is remembered comes to what climbing on would.** The answer holds from then on for
the instance and for all those climbed past. -/
theorem climbToScope_beside {scope : List Identity} {memo : ScopeMemo} :
    ∀ {above : List InstanceId} {cursor : InstanceId} {ids : Identities}, Recalls page ids scope memo →
      page.owners.after cursor = above →
      Beside page ids (climbToScope page (scope.map Identity.text) memo cursor above)
        (page.anyIdentified scope.contains above) fun climbed answer later =>
          climbed.1 = answer ∧ Decided page later scope above answer ∧
            ∀ i ∈ climbed.2, Decided page later scope (page.owners.after i) answer
  | above, cursor, ids, recalls, chain => by
    unfold climbToScope
    cases known : memo.lookup cursor with
    | some answer =>
      have decided := recalls cursor answer known
      rw [chain] at decided
      intro r sound grown
      rw [decided r.identities grown]
      exact ⟨rfl, sound, .refl _, rfl, decided.grow grown, nofun⟩
    | none =>
      cases above with
      | nil =>
        refine .pure fun later _ => ⟨rfl, decided_nil, fun i mem => ?_⟩
        rw [List.mem_singleton.mp mem, chain]
        exact decided_nil
      | cons parent rest =>
        refine (Beside.identify parent).bind fun later token t grown told => ?_
        obtain ⟨rfl, named⟩ := told
        rw [Identity.contains_map_text]
        cases within : scope.contains t with
        | true =>
          refine .pure fun last further => ?_
          have decided : Decided page last scope (parent :: rest) true :=
            decided_cons (named.grow further) (.inl ⟨within, rfl⟩)
          refine ⟨rfl, decided, fun i mem => ?_⟩
          rw [List.mem_singleton.mp mem, chain]
          exact decided
        | false =>
          have next : page.owners.after parent = rest := (page.owners.next_of_after_eq_cons chain).2
          refine (climbToScope_beside (recalls.grow grown) next).map ?_
          rintro last ⟨answer, passed⟩ _ further ⟨rfl, decided, all⟩
          have here : Decided page last scope (parent :: rest) answer :=
            decided_cons (named.grow further) (.inr ⟨within, decided⟩)
          refine ⟨rfl, here, fun i mem => ?_⟩
          rcases List.mem_cons.mp mem with rfl | mem
          · rwa [chain]
          · exact all i mem

/-- An instance is found to be in the scope or not, and what is remembered stays right. -/
theorem inScope_beside {scope? : Option (List Identity)} {memo : ScopeMemo} (i : InstanceId)
    (recalls : ∀ scope ∈ scope?, Recalls page ids scope memo) :
    Beside page ids (inScope page (scope?.map (·.map Identity.text)) i memo)
      (page.inScope scope? (page.owners.after i)) fun told answer later =>
        told.1 = answer ∧ ∀ scope ∈ scope?, Recalls page later scope told.2 := by
  cases scope? with
  | none => exact .pure fun later _ => ⟨rfl, nofun⟩
  | some scope =>
    have recalls := recalls scope rfl
    refine (climbToScope_beside recalls rfl).map ?_
    rintro later ⟨answer, passed⟩ _ grown ⟨rfl, -, all⟩
    refine ⟨rfl, ?_⟩
    rintro _ ⟨⟩ j known recalled
    rw [List.lookup_append] at recalled
    rcases Option.or_eq_some_iff.mp recalled with new | ⟨-, old⟩
    · obtain ⟨before, behind, split, -⟩ := List.lookup_eq_some_iff.mp new
      obtain ⟨k, mem, same⟩ := List.mem_map.mp
        (show (j, known) ∈ passed.map fun i => (i, answer) by simp [split])
      obtain ⟨rfl, rfl⟩ := Prod.mk.inj same
      exact all k mem
    · exact (recalls j known old).grow grown

/-! ### Component search -/

theorem tokensOf_beside : ∀ (instances : List InstanceId) {ids : Identities},
    Beside page ids (tokensOf page instances) (page.identifyEach instances) Texts
  | [], _ => .pure fun _ _ => rfl
  | i :: rest, ids => by
    refine (Beside.identify i).bind fun later token t _ told => ?_
    obtain ⟨rfl, -⟩ := told
    refine (tokensOf_beside rest).bind ?_
    rintro last more ts _ rfl
    exact .pure fun _ _ => rfl

theorem isResult_beside {scope? : Option (List Identity)} {memo : ScopeMemo} (i : InstanceId)
    (recalls : ∀ scope ∈ scope?, Recalls page ids scope memo) :
    SearchesBeside page ids (isResult page matcher query (scope?.map (·.map Identity.text)) i memo)
      (page.isResult matcher query scope? i (page.owners.after i)) fun told answer later =>
        told.1 = answer ∧ ∀ scope ∈ scope?, Recalls page later scope told.2 := by
  unfold isResult Page.isResult
  cases page.isMatch matcher query i with
  | false => exact .pure fun later grown => ⟨rfl, fun scope mem => (recalls scope mem).grow grown⟩
  | true =>
    refine .bind_lift (inScope_beside i recalls) ?_
    rintro later ⟨answer, left⟩ _ grown ⟨rfl, recalls⟩
    cases answer with
    | false => exact .pure fun last further => ⟨rfl, fun scope mem => (recalls scope mem).grow further⟩
    | true =>
      cases (page.kind i).isIntrospectable (page.backing? i) with
      | false => exact .throw _
      | true => exact .pure fun last further => ⟨rfl, fun scope mem => (recalls scope mem).grow further⟩

/-- What is left of the chains climbed: tokens are texts of the identities seen, and what is remembered of the
scope is right. -/
structure LeftBeside (page : Page) (scope? : Option (List Identity)) (left : Climbed)
    (seen : List Identity) (later : Identities) : Prop where
  seen : left.seen = seen.map Identity.text
  recalls : ∀ scope ∈ scope?, Recalls page later scope left.memo

theorem LeftBeside.grow {scope? : Option (List Identity)} {left : Climbed} {seen : List Identity}
    {later : Identities} (h : LeftBeside page scope? left seen ids) (g : ids.Grows later) :
    LeftBeside page scope? left seen later :=
  ⟨h.seen, fun scope mem => (h.recalls scope mem).grow g⟩

theorem climb_beside {scope? : Option (List Identity)} : ∀ {chain : List InstanceId} {left : Climbed}
    {seen : List Identity} {ids : Identities}, page.owners.IsUpward chain →
      LeftBeside page scope? left seen ids →
      SearchesBeside page ids (climb page matcher query (scope?.map (·.map Identity.text)) chain left)
        (page.climb matcher query scope? chain seen) fun found found' later =>
          found.1 = found'.1 ∧ LeftBeside page scope? found.2 found'.2 later
  | [], left, seen, ids, _, h => .pure fun _ grown => ⟨rfl, h.grow grown⟩
  | i :: above, left, seen, ids, up, h => by
    obtain ⟨rfl, up⟩ := up.cons
    refine .bind_lift (Beside.identify i) fun later token t grown told => ?_
    obtain ⟨rfl, -⟩ := told
    have h := h.grow grown
    rw [h.seen, Identity.contains_map_text]
    cases seen.contains t with
    | true => exact .pure fun _ further => ⟨rfl, h.grow further⟩
    | false =>
      refine (isResult_beside i h.recalls).bind ?_
      rintro middle ⟨found, memo⟩ _ further ⟨rfl, recalls⟩
      have start : LeftBeside page scope? ⟨t.text :: seen.map Identity.text, memo⟩ (t :: seen) middle :=
        ⟨rfl, recalls⟩
      refine (climb_beside up start).bind ?_
      rintro last ⟨outer, left⟩ ⟨_, seen⟩ _ ⟨rfl, h⟩
      exact .pure fun _ further => ⟨rfl, h.grow further⟩

theorem climbEach_beside {scope? : Option (List Identity)} : ∀ (nodes : List NodeId) {left : Climbed}
    {seen : List Identity} {ids : Identities}, LeftBeside page scope? left seen ids →
      SearchesBeside page ids (climbEach page matcher query (scope?.map (·.map Identity.text)) nodes left)
        (page.climbEach matcher query scope? nodes seen) Alike
  | [], _, _, _, _ => .pure fun _ _ => rfl
  | n :: rest, left, seen, ids, h => by
    have up : page.owners.IsUpward (page.hostChain n) := by
      unfold Page.hostChain
      cases page.host? n with
      | none => exact .inl rfl
      | some host => exact .inr ⟨host, rfl⟩
    refine (climb_beside up h).bind ?_
    rintro later ⟨found, left⟩ ⟨_, seen⟩ _ ⟨rfl, h⟩
    refine (climbEach_beside rest h).bind ?_
    rintro last more _ _ rfl
    exact .pure fun _ _ => rfl

theorem findDescendants_beside (scope : Scope) :
    SearchesBeside page ids (findDescendants page matcher scope query)
      (page.findDescendants matcher scope query) Alike := by
  cases scope with
  | everywhere =>
    exact @climbEach_beside page matcher query none page.nodes ⟨[], []⟩ [] ids ⟨rfl, nofun⟩
  | below instances =>
    cases instances with
    | nil => exact .pure fun _ _ => rfl
    | cons i rest =>
      refine .bind_lift (tokensOf_beside (i :: rest)) ?_
      rintro later _ ts _ rfl
      exact @climbEach_beside page matcher query (some ts) page.nodes ⟨[], []⟩ [] later
        ⟨rfl, fun _ _ => recalls_nil⟩

theorem rendersInside_beside (outside : List NodeId) (i : InstanceId) :
    Beside page ids (rendersInside page outside i) (page.rendersInside outside i) Alike := by
  refine (elementsOf_beside i).bind ?_
  rintro later elements _ _ rfl
  exact .pure fun _ _ => rfl

theorem keepBelow_beside (belowHosts : List Identity) (outside : List NodeId) :
    ∀ (candidates : List InstanceId) {ids : Identities},
      Beside page ids (keepBelow page (belowHosts.map Identity.text) outside candidates)
        (page.keepBelow belowHosts outside candidates) Alike
  | [], _ => .pure fun _ _ => rfl
  | i :: rest, ids => by
    refine (Beside.identify i).bind fun later token t _ told => ?_
    obtain ⟨rfl, -⟩ := told
    have further : ∀ (kept : Bool) {middle : Identities}, Beside page middle
        (keepBelow page (belowHosts.map Identity.text) outside rest >>= fun more =>
          pure (if kept then i :: more else more))
        (page.keepBelow belowHosts outside rest >>= fun more =>
          pure (if kept then i :: more else more)) Alike := by
      intro kept middle
      refine (keepBelow_beside belowHosts outside rest).bind ?_
      rintro last more _ _ rfl
      exact .pure fun _ _ => rfl
    rw [Identity.contains_map_text]
    cases belowHosts.contains t with
    | true => exact further true
    | false =>
      refine (rendersInside_beside outside i).bind ?_
      rintro middle kept _ _ rfl
      exact further kept

theorem findBelowNodes_beside (nodes : List NodeId) :
    SearchesBeside page ids (findBelowNodes page matcher nodes query)
      (page.findBelowNodes matcher nodes query) Alike := by
  refine (findDescendants_beside _).bind ?_
  rintro later belowHosts _ _ rfl
  cases (nodes.filter fun n => (page.host? n).isNone).isEmpty with
  | true => exact .pure fun _ _ => rfl
  | false =>
    refine .bind_lift (tokensOf_beside belowHosts) ?_
    rintro middle _ ts _ rfl
    refine (findDescendants_beside .everywhere).bind ?_
    rintro last candidates _ _ rfl
    exact .lift (keepBelow_beside ts _ candidates)

/-! ### Searches on a resolver -/

/-- From a resolver that remembers rightly the first search ends as the second does from its table of objects,
with the same table, and what is remembered is right again. -/
def EndsAs (page : Page) (m : RecallingSearch α) (n : Search α) : Prop :=
  ∀ r : Resolver, r.Sound page → (m.run r).1 = (n.run r.identities).1 ∧
    (m.run r).2.identities = (n.run r.identities).2 ∧ (m.run r).2.Sound page

theorem endsAs_of_beside {m : RecallingSearch α} {n : Search α}
    (h : SearchesBeside page .empty m n Alike) : EndsAs page m n := by
  intro r sound
  obtain ⟨same, kept, -, ends⟩ := h r sound (Identities.grows_empty _)
  refine ⟨?_, same, kept⟩
  revert ends
  cases (m.run r).1 <;> cases (n.run r.identities).1 <;> simp [EndAlike]

/-- **Searches end alike whether they remember or not**, for the elements of components, for nodes in them, for
components in a scope and for components below nodes, one search after another on one resolver. -/
theorem searches_end (page : Page) (matcher : PropertyMatcher) :
    (∀ i, EndsAs page (liftM (elementsOf page i)) (liftM (page.elementsOf i))) ∧
    (∀ is, EndsAs page (liftM (elementsOfAll page is)) (liftM (page.elementsOfAll is))) ∧
    (∀ is selector, EndsAs page (searchWithin page is selector) (page.searchWithin is selector)) ∧
    (∀ scope query, EndsAs page (findDescendants page matcher scope query)
      (page.findDescendants matcher scope query)) ∧
    ∀ nodes query, EndsAs page (findBelowNodes page matcher nodes query)
      (page.findBelowNodes matcher nodes query) :=
  ⟨fun i => endsAs_of_beside (.lift (elementsOf_beside i)),
    fun is => endsAs_of_beside (.lift (elementsOfAll_beside is)),
    fun is selector => endsAs_of_beside (searchWithin_beside is selector),
    fun scope _ => endsAs_of_beside (findDescendants_beside scope),
    fun nodes _ => endsAs_of_beside (findBelowNodes_beside nodes)⟩

end Adapter

end PageQuery

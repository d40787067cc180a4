/-
# Tokens tell keys apart

What a resolver remembers does not show: it answers as if it climbed and walked anew each time, and
remembered no more than the numbers of objects. What carries this through a sequence of requests is
that everything remembered is what its handle comes to (`Resolver.Sound`), which stays so while the
table of objects grows.

The tokens of one resolver are equal exactly when the keys that they are made from are. Keys are told
apart by identities, and identities by their text, since no part of a text holds a point.

Key definitions: `IdentityRequest.key?`, `Resolver.Sound`, `Resolver.IsAnswer`.
Key theorems: `Identity.text_inj`, `Resolver.ofInstance_eq`, `Resolver.answerEach_spec`,
`Resolver.answers_tell_keys_apart`.
-/
import PageQuery.Component.Resolver
import PageQuery.Proofs.Component.Identity
import PageQuery.Proofs.Component.Outline

namespace PageQuery

/-! ### The text of an identity -/

namespace Identity

/-- What stands for the object, or for there being none. -/
def baseChars : Option Nat → List Char
  | none => "null".toList
  | some n => (toString n).toList

/-- The parts of a text between its points. -/
def parts (t : Identity) : List (List Char) :=
  baseChars t.number? :: t.path.map fun place => (toString place).toList

/-- More at the end of the first part stands before all that follows. -/
theorem intercalate_append_head (front back : List Char) (rest : List (List Char)) :
    ['.'].intercalate ((front ++ back) :: rest) = front ++ ['.'].intercalate (back :: rest) := by
  cases rest with
  | nil => simp
  | cons next rest => simp [List.intercalate_cons_cons]

theorem toList_foldl_places : ∀ (path : List Nat) (base : String),
    (path.foldl (fun t place => t ++ "." ++ toString place) base).toList =
      ['.'].intercalate (base.toList :: path.map fun place => (toString place).toList)
  | [], base => by simp
  | place :: path, base => by
    rw [List.foldl_cons, toList_foldl_places path, List.map_cons, String.toList_append,
      String.toList_append, intercalate_append_head, List.intercalate_cons_cons]
    rfl

@[simp] theorem toList_text (t : Identity) : t.text.toList = ['.'].intercalate t.parts := by
  obtain ⟨number?, path⟩ := t
  unfold text
  rw [toList_foldl_places]
  cases number? <;> rfl

theorem isDigit_of_mem_toString {n : Nat} {c : Char} (h : c ∈ (toString n).toList) :
    c.isDigit = true := by
  have digits : c ∈ Nat.toDigits 10 n := by
    rw [← Nat.toList_repr]
    exact h
  exact Nat.isDigit_of_mem_toDigits (by omega) (by omega) digits

theorem point_not_mem_parts (t : Identity) : ∀ part ∈ t.parts, '.' ∉ part := by
  have digits : ∀ n : Nat, '.' ∉ (toString n).toList := fun n h => by
    have := isDigit_of_mem_toString h
    revert this
    decide
  intro part h
  unfold parts at h
  rcases List.mem_cons.mp h with rfl | h
  · cases t.number? with
    | none => decide
    | some n => exact digits n
  · obtain ⟨n, -, rfl⟩ := List.mem_map.mp h
    exact digits n

theorem toString_toList_injective : Function.Injective fun n : Nat => (toString n).toList := by
  intro m n h
  have digits : Nat.toDigits 10 m = Nat.toDigits 10 n := by
    rw [← Nat.toList_repr, ← Nat.toList_repr]
    exact h
  calc
    m = Nat.ofDigitChars 10 (Nat.toDigits 10 m) 0 := Nat.ofDigitChars_ten_toDigits.symm
    _ = Nat.ofDigitChars 10 (Nat.toDigits 10 n) 0 := by rw [digits]
    _ = n := Nat.ofDigitChars_ten_toDigits

theorem baseChars_injective : Function.Injective baseChars := by
  -- `null` begins with a letter and a number does not.
  have letter : ∀ n : Nat, baseChars none ≠ baseChars (some n) := fun n h => by
    have first : 'n' ∈ (toString n).toList := by
      rw [show (toString n).toList = "null".toList from h.symm]
      decide
    have := isDigit_of_mem_toString first
    revert this
    decide
  intro a b h
  cases a with
  | none =>
    cases b with
    | none => rfl
    | some m => exact absurd h (letter m)
  | some n =>
    cases b with
    | none => exact absurd h.symm (letter n)
    | some m => rw [toString_toList_injective h]

theorem parts_injective : Function.Injective parts := by
  rintro ⟨a, p⟩ ⟨b, q⟩ h
  obtain ⟨base, places⟩ := List.cons.inj h
  have number : a = b := baseChars_injective base
  have path : p = q := toString_toList_injective.list_map places
  rw [number, path]

/-- **Identities are equal exactly when their texts are.** -/
@[simp] theorem text_inj {t u : Identity} : t.text = u.text ↔ t = u := by
  refine ⟨fun h => parts_injective ?_, fun h => h ▸ rfl⟩
  have split : ∀ t : Identity, t.text.toList.splitOn '.' = t.parts := fun t => by
    rw [toList_text]
    exact List.splitOn_intercalate '.' t.point_not_mem_parts (List.cons_ne_nil _ _)
  rw [← split t, ← split u, h]

/-- The text of a child is that of its parent, a point and the place. -/
theorem text_child (number? : Option Nat) (path : List Nat) (place : Nat) :
    (⟨number?, path ++ [place]⟩ : Identity).text =
      (⟨number?, path⟩ : Identity).text ++ "." ++ toString place := by
  unfold text
  rw [List.foldl_append]
  rfl

end Identity

/-! ### Keys -/

namespace IdentityKey

/-- A key that has an identity already comes to it. -/
theorem identify_of_names {ids : Identities} {k : IdentityKey} {t : Identity} (h : ids.Names k t) :
    k.identify ids = (t, ids) := by
  obtain ⟨path, base⟩ := h
  obtain ⟨number?, places⟩ := t
  obtain rfl : places = k.path := path
  unfold identify
  cases e : k.base? with
  | none =>
    rw [e] at base
    obtain rfl : number? = none := base
    rfl
  | some b =>
    rw [e] at base
    obtain ⟨n, numbered, number⟩ := base
    obtain rfl : number? = some n := number
    have known : ids.objects.findIdx? (· == b) = some n := numbered
    simp [Identities.numberOf, known]

/-- The identity of a child is that of its parent with a place more. -/
theorem identify_child (k : IdentityKey) (place : Nat) (ids : Identities) :
    (k.child place).identify ids =
      (⟨(k.identify ids).1.number?, (k.identify ids).1.path ++ [place]⟩, (k.identify ids).2) := by
  unfold identify child
  cases k.base? <;> rfl

end IdentityKey

namespace Page

variable (page : Page) {i : InstanceId}

theorem identityKey_of_backed {b : Backing} (h : page.backing? i = some b) :
    page.identityKey i = ⟨some b, []⟩ := by
  unfold identityKey Links.upward keyAlong
  rw [h]

theorem identityKey_of_unbacked (h : page.backing? i = none) :
    page.identityKey i = (page.keyAlong (page.owners.after i)).child (page.siblingIndex i) := by
  unfold identityKey Links.upward
  rw [keyAlong, h]

theorem identityKey_of_parent {p : InstanceId} (h : page.backing? i = none)
    (up : page.owners.next i = some p) :
    page.identityKey i = (page.identityKey p).child (page.siblingIndex i) := by
  rw [page.identityKey_of_unbacked h, page.owners.after_of_next up]
  rfl

theorem identityKey_of_top (h : page.backing? i = none) (up : page.owners.next i = none) :
    page.identityKey i = IdentityKey.absent.child (page.siblingIndex i) := by
  rw [page.identityKey_of_unbacked h, page.owners.after_of_next_none up]
  rfl

end Page

/-! ### What is remembered is right -/

namespace Resolver

variable {page : Page} {r : Resolver} {α β : Type}

/-- What is remembered of a handle is what it comes to. -/
structure Sound (page : Page) (r : Resolver) : Prop where
  tokens : ∀ {i token}, r.tokens.lookup i = some token →
    ∃ t, r.identities.Names (page.identityKey i) t ∧ token = t.text
  places : ∀ {i place}, r.places.lookup i = some place → place = page.siblingIndex i

theorem sound_empty : empty.Sound page := ⟨fun h => (nomatch h), fun h => (nomatch h)⟩

/-- The computation gives the value and leaves the table of objects, with all that is remembered
right. -/
structure Comes (page : Page) (r : Resolver) (m : StateM Resolver α) (a : α) (ids : Identities) :
    Prop where
  value : (m r).1 = a
  identities : (m r).2.identities = ids
  sound : (m r).2.Sound page

theorem Comes.pure (sound : r.Sound page) (a : α) : Comes page r (pure a) a r.identities :=
  ⟨rfl, rfl, sound⟩

theorem Comes.bind {m : StateM Resolver α} {f : α → StateM Resolver β} {a : α} {b : β}
    {middle last : Identities} (hm : Comes page r m a middle)
    (hf : ∀ s : Resolver, s.identities = middle → s.Sound page → Comes page s (f a) b last) :
    Comes page r (m >>= f) b last := by
  obtain ⟨rfl, grown, sound⟩ := hm
  have rest := hf (m r).2 grown sound
  exact ⟨rest.value, rest.identities, rest.sound⟩

/-- What is recalled must be right, and what is found must be right to remember. -/
theorem recallOr_comes {known : Resolver → Option α} {remember : α → Resolver → Resolver}
    {find : StateM Resolver α} {a : α} {ids : Identities} (sound : r.Sound page)
    (recalled : ∀ b, known r = some b → b = a ∧ r.identities = ids) (found : Comes page r find a ids)
    (remembered : ∀ s : Resolver, s.identities = ids → s.Sound page →
      (remember a s).identities = ids ∧ (remember a s).Sound page) :
    Comes page r (recallOr known remember find) a ids := by
  cases e : known r with
  | some b =>
    have step : recallOr known remember find r = (b, r) := by
      unfold recallOr
      rw [e]
    obtain ⟨value, same⟩ := recalled b e
    exact ⟨by rw [step, value], by rw [step, same], by rw [step]; exact sound⟩
  | none =>
    have step : recallOr known remember find r = ((find r).1, remember (find r).1 (find r).2) := by
      unfold recallOr
      rw [e]
      rfl
    obtain ⟨value, grown, kept⟩ := found
    obtain ⟨same, still⟩ := remembered (find r).2 grown kept
    rw [value] at step
    exact ⟨by rw [step], by rw [step, same], by rw [step]; exact still⟩

theorem lookup_cons_iff {table : List (InstanceId × α)} {i j : InstanceId} {a b : α} :
    List.lookup j ((i, a) :: table) = some b ↔ if j = i then a = b else table.lookup j = some b := by
  by_cases same : j = i
  · subst same
    simp
  · have other : (j == i) = false := by simpa using same
    simp [List.lookup_cons, other, same]

/-- A place is recalled right, or found and remembered. -/
theorem placeOr_comes (sound : r.Sound page) {i : InstanceId} {find : StateM Resolver Nat}
    (found : Comes page r find (page.siblingIndex i) r.identities) :
    Comes page r (placeOr i find) (page.siblingIndex i) r.identities := by
  refine recallOr_comes sound (fun place known => ⟨sound.places known, rfl⟩) found fun s same kept => ?_
  refine ⟨same, kept.tokens, fun {j place} h => ?_⟩
  have h := lookup_cons_iff.mp h
  split at h
  · next e => rw [e, ← h]
  · exact kept.places h

/-- A token is recalled right, or found and remembered. -/
theorem tokenOr_comes (sound : r.Sound page) {i : InstanceId} {find : StateM Resolver String}
    {t : Identity} {ids : Identities} (e : (page.identityKey i).identify r.identities = (t, ids))
    (found : Comes page r find t.text ids) : Comes page r (tokenOr i find) t.text ids := by
  have named : ids.Names (page.identityKey i) t := by
    have := Identities.names_identify (page.identityKey i) r.identities
    rwa [e] at this
  refine recallOr_comes sound (fun token known => ?_) found fun s same kept => ?_
  · obtain ⟨u, named', text⟩ := sound.tokens known
    rw [IdentityKey.identify_of_names named'] at e
    obtain ⟨rfl, same⟩ := Prod.mk.inj e
    exact ⟨text, same⟩
  · refine ⟨same, fun {j token} h => ?_, kept.places⟩
    have h := lookup_cons_iff.mp h
    split at h
    · next e =>
      refine ⟨t, ?_, h.symm⟩
      rw [e]
      exact same ▸ named
    · exact kept.tokens h

/-! ### Asking anew -/

theorem placeAlong_comes : ∀ {after : List InstanceId} {i : InstanceId} {r : Resolver},
    r.Sound page → page.siblings.after i = after →
    Comes page r (placeAlong i after) (page.siblingIndex i) r.identities
  | [], i, r, sound, e => by
    have last := page.siblings.distance_of_next_none (page.siblings.next_of_after_eq_nil e)
    refine placeOr_comes sound ?_
    rw [Page.siblingIndex, last]
    exact .pure sound 0
  | j :: rest, i, r, sound, e => by
    obtain ⟨next, e⟩ := page.siblings.next_of_after_eq_cons e
    have place : page.siblingIndex i = page.siblingIndex j + 1 := page.siblings.distance_of_next next
    refine placeOr_comes sound ((placeAlong_comes sound e).bind fun s same kept => ?_)
    rw [place, ← same]
    exact .pure kept _

/-- **Whatever was asked before, the place of an instance is its distance from the end.** -/
theorem siblingIndex_comes (sound : r.Sound page) (i : InstanceId) :
    Comes page r (siblingIndex page i) (page.siblingIndex i) r.identities :=
  placeAlong_comes sound rfl

/-- The computation gives the token of the key, as if nothing but objects were remembered. -/
def Tells (page : Page) (r : Resolver) (m : StateM Resolver String) (k : IdentityKey) : Prop :=
  Comes page r m (k.identify r.identities).1.text (k.identify r.identities).2

theorem ofAbsent_tells (sound : r.Sound page) : Tells page r (pure ofAbsent) .absent :=
  .pure sound ofAbsent

theorem ofObject_tells (sound : r.Sound page) (b : Backing) : Tells page r (ofObject b) ⟨some b, []⟩ := by
  have grown := Identities.identify_grows ⟨some b, []⟩ r.identities
  refine ⟨rfl, rfl, fun h => ?_, sound.places⟩
  obtain ⟨t, named, text⟩ := sound.tokens h
  exact ⟨t, named.grow grown, text⟩

/-- Behind the token of a parent comes the place. -/
theorem Tells.child {m : StateM Resolver String} {k : IdentityKey} (h : Tells page r m k)
    (i : InstanceId) : Tells page r (do
      let parent ← m
      let place ← siblingIndex page i
      return parent ++ "." ++ toString place) (k.child (page.siblingIndex i)) := by
  unfold Tells
  rw [IdentityKey.identify_child, Identity.text_child]
  refine h.bind fun s same kept => (siblingIndex_comes kept i).bind fun s' same' kept' => ?_
  rw [← same, ← same']
  exact .pure kept' _

/-- The climb: what a chain upward tells is the key of its first instance. -/
theorem tokenAlong_tells : ∀ {chain : List InstanceId} {r : Resolver}, r.Sound page →
    page.owners.IsUpward chain → Tells page r (tokenAlong page chain) (page.keyAlong chain)
  | [], r, sound, _ => ofAbsent_tells sound
  | i :: above, r, sound, up => by
    obtain ⟨rfl, up⟩ := up.cons
    refine tokenOr_comes sound rfl ?_
    show Tells page r _ (page.identityKey i)
    cases backed : page.backing? i with
    | some b =>
      rw [page.identityKey_of_backed backed]
      exact ofObject_tells sound b
    | none =>
      rw [page.identityKey_of_unbacked backed]
      exact (tokenAlong_tells sound up).child i

/-- **A resolver that remembers tokens tells what one that only numbers objects does**, and what it remembers
is right again. -/
theorem ofInstance_eq (sound : r.Sound page) (i : InstanceId) :
    (ofInstance page i r).1 = (page.identify i r.identities).1.text ∧
      (ofInstance page i r).2.identities = (page.identify i r.identities).2 ∧
        (ofInstance page i r).2.Sound page :=
  have told := tokenAlong_tells sound (Or.inr ⟨i, rfl⟩)
  ⟨told.value, told.identities, told.sound⟩

end Resolver

/-! ### Requests one after another -/

namespace IdentityRequest

/-- What the token that is asked for is made from. -/
def key? (page : Page) : IdentityRequest → Option IdentityKey
  | .ofNode n => some (.ofNode n)
  | .ofInstance i => some (page.identityKey i)
  | .ofOptional (some i) => some (page.identityKey i)
  | .ofOptional none => some .absent
  | .siblingIndex _ => none

end IdentityRequest

namespace Resolver

/-- A token is the text of what the key comes to in the table, a place the distance from the end. -/
def IsAnswer (page : Page) (ids : Identities) (request : IdentityRequest) (a : IdentityAnswer) : Prop :=
  match request.key? page with
  | some k => ∃ t, ids.Names k t ∧ a = .token t.text
  | none => ∃ i, request = .siblingIndex i ∧ a = .place (page.siblingIndex i)

/-- What one request keeps: the answer is right from then on, and so is what is remembered. -/
structure Answered (page : Page) (r : Resolver) (request : IdentityRequest) (a : IdentityAnswer)
    (s : Resolver) : Prop where
  grows : r.identities.Grows s.identities
  sound : s.Sound page
  isAnswer : IsAnswer page s.identities request a

theorem Tells.answered {m : StateM Resolver String} {k : IdentityKey} (h : Tells page r m k)
    {request : IdentityRequest} (key : request.key? page = some k) :
    Answered page r request (.token (m r).1) (m r).2 := by
  obtain ⟨value, grown, sound⟩ := h
  have grows := Identities.identify_grows k r.identities
  have named := Identities.names_identify k r.identities
  rw [← grown] at grows named
  refine ⟨grows, sound, ?_⟩
  unfold IsAnswer
  rw [key]
  exact ⟨_, named, congrArg _ value⟩

theorem answer_answered (sound : r.Sound page) : ∀ request : IdentityRequest,
    Answered page r request (answer page request r).1 (answer page request r).2
  | .ofNode n => (ofObject_tells sound (.node n)).answered rfl
  | .ofInstance i => (tokenAlong_tells sound (Or.inr ⟨i, rfl⟩)).answered rfl
  | .ofOptional (some i) => (tokenAlong_tells sound (Or.inr ⟨i, rfl⟩)).answered rfl
  | .ofOptional none => (ofAbsent_tells sound).answered rfl
  | .siblingIndex i => by
    obtain ⟨value, same, kept⟩ := siblingIndex_comes sound i
    refine ⟨?_, kept, i, rfl, congrArg _ value⟩
    show r.identities.Grows (siblingIndex page i r).2.identities
    rw [same]
    exact .refl _

/-- An answer stays right while the table grows. -/
theorem IsAnswer.grow {before after : Identities} (g : before.Grows after) {request : IdentityRequest}
    {a : IdentityAnswer} (h : IsAnswer page before request a) : IsAnswer page after request a := by
  unfold IsAnswer at *
  split at h
  · obtain ⟨t, named, text⟩ := h
    exact ⟨t, named.grow g, text⟩
  · exact h

/-- The run: every answer of a sequence of requests is right in the table at its end. -/
theorem answerEach_spec : ∀ (requests : List IdentityRequest) {r : Resolver}, r.Sound page →
    r.identities.Grows (answerEach page requests r).2.identities ∧
      (answerEach page requests r).2.Sound page ∧
      List.Forall₂ (IsAnswer page (answerEach page requests r).2.identities) requests
        (answerEach page requests r).1
  | [], r, sound => ⟨.refl _, sound, .nil⟩
  | request :: rest, r, sound => by
    obtain ⟨grows, kept, first⟩ := answer_answered sound request
    obtain ⟨more, still, later⟩ := answerEach_spec rest kept
    exact ⟨grows.trans more, still, .cons (first.grow more) later⟩

theorem answers_right (page : Page) (requests : List IdentityRequest) :
    List.Forall₂ (IsAnswer page (answerEach page requests .empty).2.identities) requests
      (answers page requests) := (answerEach_spec requests sound_empty).2.2

/-- The answer to the request at some place. -/
theorem exists_answer (page : Page) {requests : List IdentityRequest} {m : Nat}
    {request : IdentityRequest} (asked : requests[m]? = some request) :
    ∃ a, (answers page requests)[m]? = some a ∧
      IsAnswer page (answerEach page requests .empty).2.identities request a := by
  have all := answers_right page requests
  obtain ⟨hm, rfl⟩ := List.getElem?_eq_some_iff.mp asked
  have hm' : m < (answers page requests).length := all.length_eq ▸ hm
  exact ⟨_, List.getElem?_eq_getElem hm', all.get hm hm'⟩

/-- In one run, two tokens are equal exactly when the keys asked for are. -/
theorem tokens_eq_iff (page : Page) {requests : List IdentityRequest} {m n : Nat} {k l : IdentityKey}
    (hk : (requests[m]?).bind (IdentityRequest.key? page) = some k)
    (hl : (requests[n]?).bind (IdentityRequest.key? page) = some l) :
    ∃ t u, (answers page requests)[m]? = some (.token t) ∧
      (answers page requests)[n]? = some (.token u) ∧ (t = u ↔ k = l) := by
  have told : ∀ {m : Nat} {k}, (requests[m]?).bind (IdentityRequest.key? page) = some k →
      ∃ t, (answerEach page requests .empty).2.identities.Names k t ∧
        (answers page requests)[m]? = some (.token t.text) := by
    intro m k h
    obtain ⟨request, asked, key⟩ := Option.bind_eq_some_iff.mp h
    obtain ⟨a, answered, right⟩ := exists_answer page asked
    unfold IsAnswer at right
    rw [key] at right
    obtain ⟨t, named, rfl⟩ := right
    exact ⟨t, named, answered⟩
  obtain ⟨t, ht, first⟩ := told hk
  obtain ⟨u, hu, second⟩ := told hl
  exact ⟨t.text, u.text, first, second, Identity.text_inj.trans (ht.eq_iff hu)⟩

/-- **Tokens are equal exactly when their keys are.** Whatever a resolver is asked on a page, in any
order and however often, it answers every request; two tokens that it gave are equal exactly when
they are made from one key, and every place is the number of sibling links to the end. -/
theorem answers_tell_keys_apart (page : Page) (requests : List IdentityRequest) :
    (answers page requests).length = requests.length ∧
    (∀ (m n : Nat) k l, (requests[m]?).bind (IdentityRequest.key? page) = some k →
      (requests[n]?).bind (IdentityRequest.key? page) = some l →
      ∃ t u, (answers page requests)[m]? = some (.token t) ∧
        (answers page requests)[n]? = some (.token u) ∧ (t = u ↔ k = l)) ∧
    ∀ (m : Nat) i, requests[m]? = some (.siblingIndex i) →
      (answers page requests)[m]? = some (.place (page.siblings.distance i)) := by
  have all := answers_right page requests
  refine ⟨all.length_eq.symm, fun m n k l hk hl => tokens_eq_iff page hk hl, fun m i asked => ?_⟩
  obtain ⟨a, answered, j, same, rfl⟩ := exists_answer page asked
  cases same
  exact answered

/-- An item of the list has the token of its node and not that of the component above it. -/
theorem answers_tell_keys_apart_mirror :
    let answers := answers mirrorPage
      [.ofInstance ⟨2⟩, .ofInstance ⟨0⟩, .siblingIndex ⟨2⟩, .ofNode ⟨2⟩]
    ∃ t u, answers[0]? = some (.token t) ∧ answers[3]? = some (.token t) ∧
      answers[1]? = some (.token u) ∧ t ≠ u ∧ answers[2]? = some (.place 1) := by
  intro answers
  obtain ⟨-, tokens, places⟩ := answers_tell_keys_apart mirrorPage
    [.ofInstance ⟨2⟩, .ofInstance ⟨0⟩, .siblingIndex ⟨2⟩, .ofNode ⟨2⟩]
  obtain ⟨t, t', first, last, same⟩ := tokens 0 3 _ _ rfl rfl
  obtain ⟨s, u, first', second, apart⟩ := tokens 0 1 _ _ rfl rfl
  obtain rfl : t = t' := same.mpr (by decide +kernel)
  obtain rfl : s = t := by
    rw [first] at first'
    cases first'
    rfl
  have one : mirrorPage.siblings.distance ⟨2⟩ = 1 := by decide +kernel
  exact ⟨s, u, first, last, second, fun e => absurd (apart.mp e) (by decide +kernel),
    one ▸ places 2 _ rfl⟩

end Resolver

end PageQuery

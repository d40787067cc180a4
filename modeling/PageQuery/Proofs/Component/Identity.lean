/-
# Identities tell keys apart

An identity is read off a key and the table of the objects asked for so far. A table only grows, and
an object in it keeps its number, so the identities that one run of questions gives are equal exactly
when their keys are: the order of the questions decides the numbers and nothing else.

What a computation gives is stated for every table grown out of one (`Gives`). One that only compares
identities gives the same answer from all of them (`Answers`), a search the same result (`Finds`).

Key definitions: `Identities.Grows`, `Identities.Names`, `Gives`, `Answers`, `Finds`,
`Page.SameIdentity`.
Key theorems: `Identities.Names.eq_iff`, `Gives.identify`, `Page.sameIdentity_iff`.
-/
import Mathlib.Data.List.Forall2
import PageQuery.Component.Search

namespace PageQuery

namespace Identities

/-- The objects of the first table have their numbers in the second. -/
def Grows (before after : Identities) : Prop := before.objects <+: after.objects

theorem Grows.refl (ids : Identities) : ids.Grows ids := List.prefix_refl _

theorem Grows.trans {a b c : Identities} (h : a.Grows b) (k : b.Grows c) : a.Grows c :=
  List.IsPrefix.trans h k

theorem grows_empty (ids : Identities) : empty.Grows ids := List.nil_prefix

/-- The number of an object in a table. -/
def number? (ids : Identities) (b : Backing) : Option Nat := ids.objects.findIdx? (· == b)

theorem number?_of_grows {before after : Identities} (h : before.Grows after) {b : Backing} {n : Nat}
    (hn : before.number? b = some n) : after.number? b = some n := by
  obtain ⟨more, e⟩ := h
  unfold number? at *
  rw [← e, List.findIdx?_append, hn]
  rfl

/-- Two objects do not share a number. -/
theorem number?_inj {ids : Identities} {b c : Backing} {n : Nat} (hb : ids.number? b = some n)
    (hc : ids.number? c = some n) : b = c := by
  obtain ⟨_, hb, -⟩ := List.findIdx?_eq_some_iff_getElem.mp hb
  obtain ⟨_, hc, -⟩ := List.findIdx?_eq_some_iff_getElem.mp hc
  rw [← eq_of_beq hb, ← eq_of_beq hc]

theorem numberOf_grows (b : Backing) (ids : Identities) : ids.Grows (ids.numberOf b).2 := by
  unfold numberOf
  split
  · exact Grows.refl ids
  · exact List.prefix_append _ _

@[simp] theorem number?_numberOf (b : Backing) (ids : Identities) :
    (ids.numberOf b).2.number? b = some (ids.numberOf b).1 := by
  unfold numberOf
  split
  · next n h => exact h
  · next h => simp [number?, List.findIdx?_append, h, List.findIdx?_singleton]

/-- In the table, the identity is what the key comes to. -/
def Names (ids : Identities) (k : IdentityKey) (t : Identity) : Prop :=
  t.path = k.path ∧
    match k.base? with
    | none => t.number? = none
    | some b => ∃ n, ids.number? b = some n ∧ t.number? = some n

theorem Names.grow {before after : Identities} (h : before.Grows after) {k : IdentityKey} {t : Identity}
    (ht : before.Names k t) : after.Names k t := by
  refine ⟨ht.1, ?_⟩
  have base := ht.2
  cases e : k.base? with
  | none => rw [e] at base; exact base
  | some b =>
    rw [e] at base
    obtain ⟨n, hn, tn⟩ := base
    exact ⟨n, number?_of_grows h hn, tn⟩

/-- **Identities are equal exactly when their keys are.** -/
theorem Names.eq_iff {ids : Identities} {k l : IdentityKey} {t u : Identity} (ht : ids.Names k t)
    (hu : ids.Names l u) : t = u ↔ k = l := by
  obtain ⟨kb, kp⟩ := k
  obtain ⟨lb, lp⟩ := l
  obtain ⟨tn, tp⟩ := t
  obtain ⟨un, up⟩ := u
  obtain ⟨rfl, ht⟩ := ht
  obtain ⟨rfl, hu⟩ := hu
  simp only [Identity.mk.injEq, IdentityKey.mk.injEq]
  refine and_congr_left fun _ => ?_
  cases kb with
  | none =>
    cases lb with
    | none => simp_all
    | some c => obtain ⟨n, -, hn⟩ := hu; simp_all
  | some b =>
    obtain ⟨n, hb, hn⟩ := ht
    cases lb with
    | none => simp_all
    | some c =>
      obtain ⟨m, hc, hm⟩ := hu
      rw [show tn = some n from hn, show un = some m from hm, Option.some.injEq, Option.some.injEq]
      constructor
      · rintro rfl; exact number?_inj hb hc
      · rintro rfl; exact Option.some.inj (hb.symm.trans hc)

theorem identify_grows (k : IdentityKey) (ids : Identities) : ids.Grows (k.identify ids).2 := by
  unfold IdentityKey.identify
  split
  · exact Grows.refl ids
  · next b _ => exact numberOf_grows b ids

theorem names_identify (k : IdentityKey) (ids : Identities) :
    (k.identify ids).2.Names k (k.identify ids).1 := by
  unfold IdentityKey.identify
  cases e : k.base? with
  | none => exact ⟨rfl, by rw [e]⟩
  | some b => exact ⟨rfl, by rw [e]; exact ⟨_, number?_numberOf b ids, rfl⟩⟩

theorem contains_of_names {ids : Identities} : ∀ {ks : List IdentityKey} {ts : List Identity},
    List.Forall₂ ids.Names ks ts → ∀ {k : IdentityKey} {t : Identity}, ids.Names k t →
      ts.contains t = ks.contains k
  | _, _, .nil, _, _, _ => rfl
  | _, _, .cons named rest, k, t, ht => by
    rw [List.contains_cons, List.contains_cons, contains_of_names rest ht, Bool.eq_iff_iff,
      Bool.or_eq_true, Bool.or_eq_true, beq_iff_eq, beq_iff_eq, ht.eq_iff named]

theorem names_grow {before after : Identities} (h : before.Grows after) {ks : List IdentityKey}
    {ts : List Identity} (named : List.Forall₂ before.Names ks ts) : List.Forall₂ after.Names ks ts :=
  named.imp fun _ _ ht => ht.grow h

end Identities

/-! ### Computations that ask for identities -/

variable {α β : Type} {ids : Identities}

/-- From every table grown out of the first, the table only grows, and the value and the table at the
end are as said. -/
def Gives (ids : Identities) (m : StateM Identities α) (P : α → Identities → Prop) : Prop :=
  ∀ later, ids.Grows later → later.Grows (m later).2 ∧ P (m later).1 (m later).2

theorem Gives.grow {later : Identities} {m : StateM Identities α} {P : α → Identities → Prop}
    (h : Gives ids m P) (g : ids.Grows later) : Gives later m P := fun last k => h last (g.trans k)

theorem Gives.pure {a : α} {P : α → Identities → Prop} (h : ∀ later, ids.Grows later → P a later) :
    Gives ids (pure a) P := fun later g => ⟨.refl later, h later g⟩

theorem Gives.bind {m : StateM Identities α} {f : α → StateM Identities β} {P : α → Identities → Prop}
    {Q : β → Identities → Prop} (hm : Gives ids m P)
    (hf : ∀ later a, ids.Grows later → P a later → Gives later (f a) Q) : Gives ids (m >>= f) Q := by
  intro later g
  obtain ⟨grown, p⟩ := hm later g
  obtain ⟨more, q⟩ := hf _ _ (g.trans grown) p _ (.refl _)
  exact ⟨grown.trans more, q⟩

/-- A question for an identity gives what the key comes to from then on. -/
theorem Gives.identify (page : Page) (i : InstanceId) :
    Gives ids (page.identify i) fun t after => after.Names (page.identityKey i) t :=
  fun later _ => ⟨Identities.identify_grows _ later, Identities.names_identify _ later⟩

theorem Gives.identifyEach (page : Page) : ∀ instances : List InstanceId,
    Gives ids (page.identifyEach instances) fun ts after =>
      List.Forall₂ after.Names (instances.map page.identityKey) ts
  | [] => Gives.pure fun _ _ => .nil
  | i :: rest => by
    refine (Gives.identify page i).bind fun middle t g named => ?_
    refine ((Gives.identifyEach page rest).grow g).bind fun later ts grown rests => ?_
    exact Gives.pure fun last g =>
      List.Forall₂.cons (named.grow (grown.trans g)) (Identities.names_grow g rests)

/-- From every table grown out of the first, the answer is `a`. -/
def Answers (ids : Identities) (m : StateM Identities α) (a : α) : Prop := Gives ids m fun b _ => b = a

theorem Answers.pure (a : α) : Answers ids (pure a) a := Gives.pure fun _ _ => rfl

theorem Answers.bind {m : StateM Identities α} {f : α → StateM Identities β} {a : α} {b : β}
    (hm : Answers ids m a) (hf : Answers ids (f a) b) : Answers ids (m >>= f) b :=
  Gives.bind hm fun _ _ g e => e ▸ hf.grow g

/-! ### Searches -/

theorem Gives.search_bind {m : Search α} {f : α → Search β}
    {P : Except QueryError α → Identities → Prop} {Q : Except QueryError β → Identities → Prop}
    (hm : Gives ids m.run P) (ok : ∀ later a, ids.Grows later → P (.ok a) later → Gives later (f a).run Q)
    (error : ∀ later last e, later.Grows last → P (.error e) later → Q (.error e) last) :
    Gives ids (m >>= f).run Q := by
  refine Gives.bind (f := ExceptT.bindCont f) hm fun later r g p => ?_
  cases r with
  | ok a => exact ok later a g p
  | error e => exact Gives.pure fun last h => error later last e h p

theorem Gives.lift_bind {m : StateM Identities α} {f : α → Search β} {P : α → Identities → Prop}
    {Q : Except QueryError β → Identities → Prop} (hm : Gives ids m P)
    (hf : ∀ later a, ids.Grows later → P a later → Gives later (f a).run Q) :
    Gives ids (liftM m >>= f : Search β).run Q := Gives.bind (f := fun a => (f a).run) hm hf

/-- From every table grown out of the first, the search has the result `r`. -/
def Finds (ids : Identities) (m : Search α) (r : Except QueryError α) : Prop :=
  Gives ids m.run fun s _ => s = r

theorem Finds.pure (a : α) : Finds ids (pure a : Search α) (.ok a) := Answers.pure _

theorem Finds.throw (e : QueryError) : Finds ids (throw e : Search α) (.error e) := Answers.pure _

theorem Finds.bind {m : Search α} {f : α → Search β} {r : Except QueryError α}
    {g : α → Except QueryError β} (hm : Finds ids m r) (hf : ∀ a, r = .ok a → Finds ids (f a) (g a)) :
    Finds ids (m >>= f) (r.bind g) := by
  refine Gives.search_bind hm (fun later a grown e => ?_) fun _ _ e _ h => ?_
  · rw [← e]; exact (hf a e.symm).grow grown
  · rw [← h]; rfl

theorem Finds.map {m : Search α} {f : α → β} {r : Except QueryError α} (h : Finds ids m r) :
    Finds ids (m >>= fun a => Pure.pure (f a)) (r.map f) := by
  have step := Finds.bind (f := fun a => (Pure.pure (f a) : Search β)) h fun a _ => Finds.pure (f a)
  cases r <;> exact step

theorem Finds.lift {m : StateM Identities α} {a : α} (h : Answers ids m a) :
    Finds ids (liftM m : Search α) (.ok a) := fun later g =>
  ⟨(h later g).1, congrArg Except.ok (h later g).2⟩

theorem Finds.bind_lift {m : StateM Identities α} {f : α → Search β} {a : α} {r : Except QueryError β}
    (hm : Answers ids m a) (hf : Finds ids (f a) r) : Finds ids (liftM m >>= f) r :=
  Gives.lift_bind hm fun _ _ g e => e ▸ Gives.grow hf g

namespace Page

/-- Two instances have one identity. -/
def SameIdentity (page : Page) (i j : InstanceId) : Prop := page.identityKey i = page.identityKey j

instance (page : Page) (i j : InstanceId) : Decidable (page.SameIdentity i j) :=
  inferInstanceAs (Decidable (page.identityKey i = page.identityKey j))

/-- Asked for one after the other, whatever was asked before, two instances give one identity exactly
when they have one key. -/
theorem sameIdentity_iff (page : Page) (i j : InstanceId) (ids : Identities) :
    page.SameIdentity i j ↔
      (page.identify i ids).1 = (page.identify j (page.identify i ids).2).1 := by
  have first := Identities.names_identify (page.identityKey i) ids
  have grown := Identities.identify_grows (page.identityKey j) (page.identify i ids).2
  exact ((first.grow grown).eq_iff (Identities.names_identify _ _)).symm

end Page

end PageQuery

/-
# Computations with one outcome

A run has a table of identities, a cache of parses and the overlay at hand, but what it comes to hangs
on none of them: identities only ever serve to tell keys apart, a sound cache gives what a parse would,
and of the overlay only the name of the next marker is read. So a run has one outcome, which is that on
a fresh progress, and outcomes compose as the runs do.

Two runs that agree from any two progresses are compared (`Agree`) rather than a run with its outcome,
since a name handed out may differ on the way without showing in the end.

Key definitions: `Run.Agree`, `Run.Settles`, `Run.outcome`.
Key theorems: `Run.Agree.bind`, `Run.Settles.apply`, `Run.outcome_bind`.
-/
import PageQuery.Engine.Run
import PageQuery.Proofs.Component.Identity
import PageQuery.Proofs.Selector.CachedParses

namespace PageQuery

namespace Run

variable {α β : Type} {allowed : Halt → Prop}

theorem bind_apply (m : Run α) (f : α → Run β) (p : Progress) :
    (m >>= f) p = match m p with
      | (.ok a, q) => f a q
      | (.error h, q) => (.error h, q) := by
  show (ExceptT.bind m f : Run β) p = _
  unfold ExceptT.bind ExceptT.mk
  show ExceptT.bindCont f (m p).1 (m p).2 = _
  match m p with
  | (.ok a, q) => rfl
  | (.error h, q) => rfl

theorem map_apply (m : Run α) (f : α → β) (p : Progress) :
    ((m >>= fun a => Pure.pure (f a)) p).1 = (m p).1.map f := by
  rw [bind_apply]
  match m p with
  | (.ok a, _) => rfl
  | (.error h, _) => rfl

theorem ofSearch_apply {s : Search α} {r : Except QueryError α} (h : Finds .empty s r)
    (p : Progress) : ∃ identities, ofSearch s p = (r.mapError .error, { p with identities }) :=
  ⟨(s p.identities).2, by rw [← (h _ p.identities.grows_empty).2]; rfl⟩

/-- From any progresses with sound caches, both end alike, for an allowed reason if they fail, and
leave sound caches. -/
def Agree (allowed : Halt → Prop) (m n : Run α) : Prop :=
  ∀ p q : Progress, p.selectors.Sound → q.selectors.Sound →
    (m p).1 = (n q).1 ∧ (∀ h, (m p).1 = .error h → allowed h) ∧
      (m p).2.selectors.Sound ∧ (n q).2.selectors.Sound

/-- The end of the run hangs on nothing that came before. -/
def Settles (allowed : Halt → Prop) (m : Run α) : Prop := Agree allowed m m

theorem Agree.pure (a : α) : Agree allowed (pure a : Run α) (Pure.pure a) := fun _ _ hp hq =>
  ⟨rfl, fun _ h => (nomatch h), hp, hq⟩

theorem Agree.throw {h : Halt} (ha : allowed h) : Agree allowed (throw h : Run α) (MonadExcept.throw h) :=
  fun _ _ hp hq => ⟨rfl, fun _ e => by cases e; exact ha, hp, hq⟩

theorem Agree.bind {m n : Run α} {f g : α → Run β} (hm : Agree allowed m n)
    (hf : ∀ a, Agree allowed (f a) (g a)) : Agree allowed (m >>= f) (n >>= g) := by
  intro p q hp hq
  obtain ⟨same, reason, sp, sq⟩ := hm p q hp hq
  rw [bind_apply, bind_apply]
  generalize m p = left at *
  generalize n q = right at *
  obtain ⟨r, p'⟩ := left
  obtain ⟨r', q'⟩ := right
  obtain rfl : r = r' := same
  cases r with
  | ok a => exact hf a p' q' sp sq
  | error h => exact ⟨rfl, fun x e => reason x (by cases e; rfl), sp, sq⟩

theorem Agree.mono {more : Halt → Prop} {m n : Run α} (h : Agree allowed m n)
    (k : ∀ x, allowed x → more x) : Agree more m n := fun p q hp hq =>
  let ⟨same, reason, sound⟩ := h p q hp hq
  ⟨same, fun x e => k x (reason x e), sound⟩

/-- What a step of the overlay gives may differ. -/
theorem Agree.onOverlay_bind {step step' : Overlay → α × Overlay} {f g : α → Run β}
    (h : ∀ a b, Agree allowed (f a) (g b)) : Agree allowed (onOverlay step >>= f) (onOverlay step' >>= g) :=
  fun p q hp hq => h _ _ { p with overlay := (step p.overlay).2 } { q with overlay := (step' q.overlay).2 } hp hq

theorem Settles.ofIdentified {s : StateM Identities α} {a : α} (h : Answers .empty s a) :
    Settles allowed (ofIdentified s) := fun p q hp hq =>
  ⟨congrArg Except.ok (((h _ p.identities.grows_empty).2).trans (h _ q.identities.grows_empty).2.symm),
    fun _ e => (nomatch e), hp, hq⟩

theorem Settles.ofSearch {s : Search α} {r : Except QueryError α} (h : Finds .empty s r)
    (ha : ∀ e, allowed (.error e)) : Settles allowed (ofSearch s) := by
  intro p q hp hq
  have left : (s p.identities).1 = r := (h _ p.identities.grows_empty).2
  have right : (s q.identities).1 = r := (h _ q.identities.grows_empty).2
  refine ⟨?_, fun x e => ?_, hp, hq⟩
  · show (s p.identities).1.mapError Halt.error = (s q.identities).1.mapError Halt.error
    rw [left, right]
  · have e : (s p.identities).1.mapError Halt.error = .error x := e
    cases k : (s p.identities).1 with
    | ok a => rw [k] at e; cases e
    | error y => rw [k] at e; cases e; exact ha y

theorem Settles.ofDocument {r : Except SearchError α} (ha : ∀ e, allowed (.error e)) :
    Settles allowed (ofDocument r) := by
  cases r with
  | ok a => exact Agree.pure a
  | error e => exact Agree.throw (ha _)

theorem parse_apply (text : String) {p : Progress} (hp : p.selectors.Sound) :
    (parse text p).1 = (Selector.parse text).mapError fun e => .error (.selector e) := by
  rw [← SelectorCache.getOrParse_fst hp text]
  unfold parse
  match p.selectors.getOrParse text with
  | (.ok (_, s), _) => rfl
  | (.error e, _) => rfl

theorem parse_sound (text : String) {p : Progress} (hp : p.selectors.Sound) :
    (parse text p).2.selectors.Sound := by
  have kept := SelectorCache.getOrParse_sound hp text
  unfold parse
  match p.selectors.getOrParse text, kept with
  | (.ok (_, s), _), kept => exact kept
  | (.error e, _), kept => exact kept

theorem Settles.parse (text : String) (ha : ∀ e, allowed (.error e)) : Settles allowed (parse text) := by
  intro p q hp hq
  refine ⟨(parse_apply text hp).trans (parse_apply text hq).symm, fun x e => ?_, parse_sound text hp,
    parse_sound text hq⟩
  rw [parse_apply text hp] at e
  cases k : Selector.parse text with
  | ok s => rw [k] at e; cases e
  | error y => rw [k] at e; cases e; exact ha _

/-! ### What runs give -/

/-- From any progress, what the run gives is as said. -/
def Yields (m : Run α) (P : α → Prop) : Prop := ∀ p a, (m p).1 = .ok a → P a

theorem Yields.pure {P : α → Prop} {a : α} (h : P a) : Yields (pure a : Run α) P := by
  rintro p _ ⟨⟩
  exact h

theorem Yields.fail {P : α → Prop} (e : QueryError) : Yields (fail e : Run α) P := by
  rintro p _ ⟨⟩

theorem Yields.bind {m : Run α} {f : α → Run β} {P : α → Prop} {Q : β → Prop} (hm : Yields m P)
    (hf : ∀ a, P a → Yields (f a) Q) : Yields (m >>= f) Q := by
  intro p b e
  rw [bind_apply] at e
  have given := hm p
  generalize m p = left at *
  match left, e with
  | (.ok a, q), e => exact hf a (given a rfl) q b e

theorem Yields.mono {m : Run α} {P Q : α → Prop} (hm : Yields m P) (h : ∀ a, P a → Q a) : Yields m Q :=
  fun p a e => h a (hm p a e)

/-- What the run gives does not matter if all that follows is as said. -/
theorem Yields.of_rest {m : Run α} {f : α → Run β} {Q : β → Prop} (hf : ∀ a, Yields (f a) Q) :
    Yields (m >>= f) Q :=
  Yields.bind (P := fun _ => True) (fun _ _ _ => trivial) fun a _ => hf a

/-! ### Outcomes -/

/-- Nothing asked for, nothing parsed and nothing marked. -/
def fresh : Progress := ⟨.empty, .empty, .empty⟩

/-- What a run comes to on a fresh progress. -/
def outcome (m : Run α) : Except Halt α := (m fresh).1

theorem Agree.outcome_eq {m n : Run α} (h : Agree allowed m n) : outcome m = outcome n :=
  (h fresh fresh SelectorCache.sound_empty SelectorCache.sound_empty).1

/-- **A run that settles comes to its outcome from any sound progress.** -/
theorem Settles.apply {m : Run α} (h : Settles allowed m) {p : Progress} (hp : p.selectors.Sound) :
    (m p).1 = outcome m := (h p fresh hp SelectorCache.sound_empty).1

theorem Settles.sound {m : Run α} (h : Settles allowed m) {p : Progress} (hp : p.selectors.Sound) :
    (m p).2.selectors.Sound := (h p p hp hp).2.2.1

theorem Settles.reason {m : Run α} (h : Settles allowed m) {x : Halt} (e : outcome m = .error x) :
    allowed x := (h fresh fresh SelectorCache.sound_empty SelectorCache.sound_empty).2.1 x e

theorem Settles.bind {m : Run α} {f : α → Run β} (hm : Settles allowed m)
    (hf : ∀ a, Settles allowed (f a)) : Settles allowed (m >>= f) := Agree.bind hm hf

/-- **Outcomes compose as runs do.** -/
theorem outcome_bind {m : Run α} {f : α → Run β} {more : Halt → Prop} (hm : Settles allowed m)
    (hf : ∀ a, Settles more (f a)) : outcome (m >>= f) = (outcome m).bind fun a => outcome (f a) := by
  have sound := hm.sound SelectorCache.sound_empty (p := fresh)
  unfold outcome
  rw [bind_apply]
  generalize m fresh = left at *
  match left, sound with
  | (.ok a, q), sound => exact (hf a).apply sound
  | (.error h, q), _ => rfl

theorem outcome_map {m : Run α} (f : α → β) (hm : Settles allowed m) :
    outcome (m >>= fun a => Pure.pure (f a)) = (outcome m).map f := by
  rw [outcome_bind hm (fun a => Agree.pure (f a) : ∀ a, Settles allowed _)]
  cases outcome m <;> rfl

theorem outcome_ofSearch {s : Search α} {r : Except QueryError α} (h : Finds .empty s r) :
    outcome (ofSearch s) = r.mapError .error :=
  congrArg (Except.mapError Halt.error) (h _ (Identities.grows_empty _)).2

@[simp] theorem outcome_parse (text : String) :
    outcome (parse text) = (Selector.parse text).mapError fun e => .error (.selector e) :=
  parse_apply text SelectorCache.sound_empty

end Run

end PageQuery

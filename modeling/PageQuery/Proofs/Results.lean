/-
# Results of partial functions

A partial function gives a result or a reason why there is none. On a list of arguments the results
stand in order (`each`) or are strung together (`collect`); in both cases there are some exactly when
each argument has one.

Key definitions: `each`, `collect`, `Pointwise`.
Key theorems: `each_ok_iff`, `mem_of_collect`, `of_collect_error`, `Pointwise.of`.
-/
import Mathlib.Data.List.Forall2

namespace PageQuery

variable {α β γ ε δ : Type}

@[simp] theorem ok_bind {a : α} {f : α → Except ε β} : (Except.ok a).bind f = f a := rfl

@[simp] theorem map_ok_iff {r : Except ε α} {f : α → β} {b : β} :
    r.map f = .ok b ↔ ∃ a, r = .ok a ∧ f a = b := by
  cases r <;> simp [Except.map]

@[simp] theorem map_error_iff {r : Except ε α} {f : α → β} {e : ε} : r.map f = .error e ↔ r = .error e := by
  cases r <;> simp [Except.map]

@[simp] theorem bind_ok_iff {r : Except ε α} {f : α → Except ε β} {b : β} :
    r.bind f = .ok b ↔ ∃ a, r = .ok a ∧ f a = .ok b := by
  cases r <;> simp [Except.bind]

@[simp] theorem mapError_ok_iff {r : Except ε α} {f : ε → δ} {a : α} : r.mapError f = .ok a ↔ r = .ok a := by
  cases r <;> simp [Except.mapError]

@[simp] theorem mapError_error_iff {r : Except ε α} {f : ε → δ} {d : δ} :
    r.mapError f = .error d ↔ ∃ e, r = .error e ∧ f e = d := by
  cases r <;> simp [Except.mapError]

theorem exists_ok_of_toBool {r : Except ε α} (h : r.toBool = true) : ∃ a, r = .ok a := by
  cases r with
  | error e => cases h
  | ok a => exact ⟨a, rfl⟩

@[simp] theorem toOption_some_iff {r : Except ε α} {a : α} : r.toOption = some a ↔ r = .ok a := by
  cases r <;> simp [Except.toOption]

theorem exists_ok_of_map {r : Except ε α} {f : α → β} {b : β} (h : r.toOption.map f = some b) :
    ∃ a, r = .ok a ∧ f a = b := by
  obtain ⟨a, ok, e⟩ := Option.map_eq_some_iff.mp h
  exact ⟨a, toOption_some_iff.mp ok, e⟩

/-! ### Relations along lists -/

/-- Something is related to a list exactly when something is to each of its items. -/
theorem exists_forall₂_iff {R : α → β → Prop} : ∀ {as : List α},
    (∃ bs, List.Forall₂ R as bs) ↔ ∀ a ∈ as, ∃ b, R a b
  | [] => by simp
  | a :: rest => by
    rw [List.forall_mem_cons, ← exists_forall₂_iff]
    constructor
    · rintro ⟨bs, h⟩
      cases h with
      | cons r h => exact ⟨⟨_, r⟩, _, h⟩
    · rintro ⟨⟨b, r⟩, bs, h⟩
      exact ⟨b :: bs, .cons r h⟩

theorem exists_right_of_forall₂ {R : α → β → Prop} : ∀ {as : List α} {bs : List β},
    List.Forall₂ R as bs → ∀ a ∈ as, ∃ b ∈ bs, R a b
  | _, _, .cons r h, c, hc => by
    rcases List.mem_cons.mp hc with rfl | hc
    · exact ⟨_, List.mem_cons_self, r⟩
    · obtain ⟨b, hb, r⟩ := exists_right_of_forall₂ h c hc
      exact ⟨b, List.mem_cons_of_mem _ hb, r⟩

theorem exists_left_of_forall₂ {R : α → β → Prop} {as : List α} {bs : List β}
    (h : List.Forall₂ R as bs) : ∀ b ∈ bs, ∃ a ∈ as, R a b := exists_right_of_forall₂ h.flip

theorem exists_getElem?_of_forall₂ {R : α → β → Prop} {as : List α} {bs : List β}
    (h : List.Forall₂ R as bs) {n : Nat} {a : α} (here : as[n]? = some a) :
    ∃ b, bs[n]? = some b ∧ R a b := by
  induction h generalizing n with
  | nil => cases here
  | cons r _ ih =>
    cases n with
    | zero => exact ⟨_, rfl, Option.some.inj here ▸ r⟩
    | succ n => exact ih here

/-- Two relations along lists, one behind the other, are one. -/
theorem forall₂_comp {R : α → β → Prop} {S : β → γ → Prop} : ∀ {as : List α} {cs : List γ},
    (∃ bs, List.Forall₂ R as bs ∧ List.Forall₂ S bs cs) ↔
      List.Forall₂ (fun a c => ∃ b, R a b ∧ S b c) as cs
  | [], cs => by
    constructor
    · rintro ⟨bs, h, k⟩
      cases h
      cases k
      exact .nil
    · intro h
      cases h
      exact ⟨[], .nil, .nil⟩
  | a :: as, cs => by
    constructor
    · rintro ⟨bs, h, k⟩
      cases h with
      | cons r h =>
        cases k with
        | cons s k => exact .cons ⟨_, r, s⟩ (forall₂_comp.mp ⟨_, h, k⟩)
    · intro h
      cases h with
      | cons rs h =>
        obtain ⟨b, r, s⟩ := rs
        obtain ⟨bs, h, k⟩ := forall₂_comp.mpr h
        exact ⟨b :: bs, .cons r h, .cons s k⟩

/-! ### Results in order -/

/-- The results of a partial function on some arguments, in order. -/
def each (f : α → Except ε β) : List α → Except ε (List β)
  | [] => .ok []
  | a :: rest => (f a).bind fun b => (each f rest).map fun bs => b :: bs

theorem each_ok_iff {f : α → Except ε β} : ∀ {as : List α} {bs : List β},
    each f as = .ok bs ↔ List.Forall₂ (fun a b => f a = .ok b) as bs
  | [], bs => by
    rw [List.forall₂_nil_left_iff]
    exact ⟨fun h => (Except.ok.inj h).symm, fun h => h ▸ rfl⟩
  | a :: rest, bs => by
    rw [List.forall₂_cons_left_iff, each, bind_ok_iff]
    simp only [map_ok_iff, each_ok_iff]
    constructor
    · rintro ⟨b, h, found, all, rfl⟩
      exact ⟨b, found, h, all, rfl⟩
    · rintro ⟨b, found, h, all, rfl⟩
      exact ⟨b, h, found, all, rfl⟩

/-! ### Results one after another -/

/-- The results of a partial function on some arguments, one after another. -/
def collect (f : α → Except ε (List β)) : List α → Except ε (List β)
  | [] => .ok []
  | a :: rest => (f a).bind fun found => (collect f rest).map fun more => found ++ more

/-- What is collected is what some argument gives. -/
theorem mem_of_collect {f : α → Except ε (List β)} : ∀ {as : List α} {found : List β},
    collect f as = .ok found → ∀ b, b ∈ found ↔ ∃ a ∈ as, ∃ bs, f a = .ok bs ∧ b ∈ bs
  | [], found, h, b => by cases h; simp
  | a :: rest, found, h, b => by
    obtain ⟨bs, e, h⟩ := bind_ok_iff.mp h
    obtain ⟨more, e', rfl⟩ := map_ok_iff.mp h
    simp only [List.mem_append, List.mem_cons, exists_eq_or_imp, mem_of_collect e' b, e,
      Except.ok.injEq, exists_eq_left']

/-- Nothing is collected for the reason that some argument gives nothing. -/
theorem of_collect_error {f : α → Except ε (List β)} {e : ε} : ∀ {as : List α},
    collect f as = .error e → ∃ a ∈ as, f a = .error e
  | a :: rest, h => by
    rw [collect] at h
    cases here : f a with
    | error x =>
      rw [here] at h
      cases h
      exact ⟨a, List.mem_cons_self, here⟩
    | ok found =>
      rw [here, ok_bind, map_error_iff] at h
      obtain ⟨b, mem, fails⟩ := of_collect_error h
      exact ⟨b, List.mem_cons_of_mem a mem, fails⟩

/-- Something is collected exactly when every argument gives something. -/
theorem collect_ok_iff {f : α → Except ε (List β)} : ∀ {as : List α},
    (∃ found, collect f as = .ok found) ↔ ∀ a ∈ as, ∃ bs, f a = .ok bs
  | [] => by simp [collect]
  | a :: rest => by
    rw [List.forall_mem_cons, ← collect_ok_iff, collect]
    simp only [bind_ok_iff, map_ok_iff]
    constructor
    · rintro ⟨found, bs, h, more, h', -⟩
      exact ⟨⟨bs, h⟩, more, h'⟩
    · rintro ⟨⟨bs, h⟩, more, h'⟩
      exact ⟨_, bs, h, more, h', rfl⟩

/-! ### Functions that work item by item -/

/-- On some arguments, the function gives what it gives on each alone, and fails if it fails on one. -/
structure Pointwise (f : List α → Except ε (List β)) : Prop where
  ok_iff : ∀ as, (∃ bs, f as = .ok bs) ↔ ∀ a ∈ as, ∃ bs, f [a] = .ok bs
  mem_iff : ∀ {as bs}, f as = .ok bs → ∀ b, b ∈ bs ↔ ∃ a ∈ as, ∃ cs, f [a] = .ok cs ∧ b ∈ cs

/-- It is enough to know when the function succeeds and what it gives, item by item. -/
theorem Pointwise.of {f : List α → Except ε (List β)} (fits : α → Prop) (gives : α → β → Prop)
    (ok : ∀ as, (∃ bs, f as = .ok bs) ↔ ∀ a ∈ as, fits a)
    (mem : ∀ {as bs}, f as = .ok bs → ∀ b, b ∈ bs ↔ ∃ a ∈ as, gives a b) : Pointwise f where
  ok_iff as := by
    rw [ok]
    refine forall₂_congr fun a _ => ?_
    rw [ok, List.forall_mem_singleton]
  mem_iff {as bs} h b := by
    rw [mem h]
    refine exists_congr fun a => and_congr_right fun ha => ?_
    obtain ⟨cs, alone⟩ := (ok [a]).mpr (by simpa using (ok as).mp ⟨bs, h⟩ a ha)
    have one : ∀ b, b ∈ cs ↔ gives a b := fun b => by simpa using mem alone b
    constructor
    · exact fun g => ⟨cs, alone, (one b).mpr g⟩
    · rintro ⟨cs', alone', hb⟩
      obtain rfl : cs = cs' := Except.ok.inj (alone.symm.trans alone')
      exact (one b).mp hb

theorem pointwise_collect (f : α → Except ε (List β)) : Pointwise (collect f) :=
  .of (fun a => ∃ bs, f a = .ok bs) (fun a b => ∃ bs, f a = .ok bs ∧ b ∈ bs)
    (fun _ => collect_ok_iff) mem_of_collect

/-- What is done to the results as a whole may reorder them and drop repetitions. -/
theorem Pointwise.map {f : List α → Except ε (List β)} (h : Pointwise f) {g : List β → List β}
    (same : ∀ bs b, b ∈ g bs ↔ b ∈ bs) : Pointwise fun as => (f as).map g := by
  refine ⟨fun as => ?_, fun {as bs} whole b => ?_⟩
  · have ok : ∀ as, (∃ bs, (f as).map g = .ok bs) ↔ ∃ bs, f as = .ok bs := fun as => by
      cases f as <;> simp [Except.map]
    simp only [ok]
    exact h.ok_iff as
  · obtain ⟨ds, e, rfl⟩ := map_ok_iff.mp whole
    rw [same, h.mem_iff e]
    refine exists_congr fun a => and_congr_right fun _ => ?_
    constructor
    · rintro ⟨cs, e, hb⟩
      exact ⟨g cs, map_ok_iff.mpr ⟨cs, e, rfl⟩, (same cs b).mpr hb⟩
    · rintro ⟨_, alone, hb⟩
      obtain ⟨cs, e, rfl⟩ := map_ok_iff.mp alone
      exact ⟨cs, e, (same cs b).mp hb⟩

theorem Pointwise.mapError {f : List α → Except ε (List β)} (h : Pointwise f) (g : ε → δ) :
    Pointwise fun as => (f as).mapError g where
  ok_iff as := by
    simp only [mapError_ok_iff]
    exact h.ok_iff as
  mem_iff {as bs} e b := by
    simp only [mapError_ok_iff]
    exact h.mem_iff (mapError_ok_iff.mp e) b

end PageQuery

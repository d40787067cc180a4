/-
# Runs of the overlay

Markers are added to an overlay, cleared and pruned, and in between it is asked for names and for what is
active. As long as time does not run backwards pruning never shows, since a marker that has expired stays
expired: a pruned overlay is seen, from the moment of pruning on, as the one that dropped nothing
(`SeenAs`). What is active is therefore read off the markers added since the last clearing, in the order
in which they were added.

Names come off a counter that neither pruning nor clearing sets back.

Key definitions: `Overlay.Step`, `Overlay.Answer`, `Overlay.log`, `Overlay.standing`, `Overlay.SeenAs`.
Key theorems: `Overlay.SeenAs.afterAll`, `Overlay.SeenAs.log`, `Overlay.uids_log`, `Overlay.log_ordered`.
-/
import PageQuery.Engine.Overlay
import PageQuery.Proofs.Number.Decimal
import Mathlib.Data.List.Nodup

namespace PageQuery

/-! ### Names -/

namespace Overlay

/-- The name that is handed out after so many others. -/
def uidOf (named : Nat) : String := "specview-highlight-" ++ String.ofList (natChars (named + 1))

theorem uidOf_injective : Function.Injective uidOf := by
  intro m n same
  have texts := congrArg String.toList same
  unfold uidOf at texts
  rw [String.toList_append, String.toList_append] at texts
  have digits := List.append_cancel_left texts
  rw [String.toList_ofList, String.toList_ofList] at digits
  exact Nat.succ.inj (natChars_injective digits)

/-! ### Steps and answers -/

/-- What is done to an overlay or asked of it, with the moment where it matters. -/
inductive Step where
  | nextUid
  | add (marker : Marker)
  | prune (now : Nat)
  | clear
  | count (now : Nat)
  | active (now : Nat)
  deriving DecidableEq, Repr

namespace Step

def time? : Step → Option Nat
  | .prune now | .count now | .active now => some now
  | .nextUid | .add _ | .clear => none

def isPrune : Step → Bool
  | .prune _ => true
  | _ => false

end Step

/-- What an overlay answers to a step. -/
inductive Answer where
  | done
  | uid (uid : String)
  | count (count : Nat)
  | markers (markers : List Marker)
  deriving DecidableEq, Repr

def Answer.uid? : Answer → Option String
  | .uid name => some name
  | _ => none

def answer (o : Overlay) : Step → Answer
  | .nextUid => .uid o.nextUid.1
  | .count now => .count (o.count now)
  | .active now => .markers (o.active now)
  | .add _ | .prune _ | .clear => .done

/-- The overlay that a step leaves. -/
def after (o : Overlay) : Step → Overlay
  | .nextUid => o.nextUid.2
  | .add m => o.add m
  | .prune now => o.prune now
  | .clear => o.clear
  | .count _ | .active _ => o

def afterAll (o : Overlay) (steps : List Step) : Overlay := steps.foldl after o

/-- The steps of a run with their answers. -/
def log : Overlay → List Step → List (Step × Answer)
  | _, [] => []
  | o, s :: rest => (s, o.answer s) :: log (o.after s) rest

/-- The markers after some steps if none is ever dropped for its time. -/
def standing (markers : List Marker) : List Step → List Marker
  | [] => markers
  | .add m :: rest => standing (markers ++ [m]) rest
  | .clear :: rest => standing [] rest
  | _ :: rest => standing markers rest

/-- A step is answered by the overlay that the steps before it leave. -/
theorem getElem?_log : ∀ (o : Overlay) (steps : List Step) (n : Nat),
    (o.log steps)[n]? = steps[n]?.map fun s => (s, (o.afterAll (steps.take n)).answer s)
  | _, [], _ => rfl
  | _, _ :: _, 0 => rfl
  | o, s :: rest, n + 1 => getElem?_log (o.after s) rest n

theorem markers_afterAll : ∀ (o : Overlay) (steps : List Step),
    (o.afterAll (steps.filter (!·.isPrune))).markers = standing o.markers steps
  | _, [] => rfl
  | o, .prune _ :: rest => markers_afterAll o rest
  | o, .nextUid :: rest => markers_afterAll o.nextUid.2 rest
  | o, .add m :: rest => markers_afterAll (o.add m) rest
  | o, .clear :: rest => markers_afterAll o.clear rest
  | o, .count _ :: rest => markers_afterAll o rest
  | o, .active _ :: rest => markers_afterAll o rest

/-- **The names of a run are numbered on.** -/
theorem uids_log : ∀ (o : Overlay) (steps : List Step), (o.log steps).filterMap (·.2.uid?) =
    (List.range' o.named (steps.count .nextUid)).map uidOf
  | _, [] => rfl
  | o, s :: rest => by
    have others := uids_log (o.after s) rest
    rw [log, List.filterMap_cons, others, List.count_cons]
    cases s <;> rfl

/-- Where times do not decrease, a first step happens no earlier than now, and the others no earlier than
it does. -/
theorem ordered_cons {now : Nat} {s : Step} {rest : List Step}
    (ordered : (now :: (s :: rest).filterMap Step.time?).Pairwise (· ≤ ·)) :
    (∀ t ∈ s.time?, now ≤ t) ∧ now ≤ s.time?.getD now ∧
      (s.time?.getD now :: rest.filterMap Step.time?).Pairwise (· ≤ ·) := by
  cases timed : s.time? with
  | none =>
    rw [List.filterMap_cons_none timed] at ordered
    exact ⟨nofun, Nat.le_refl now, ordered⟩
  | some t =>
    rw [List.filterMap_cons_some timed] at ordered
    obtain ⟨least, ordered⟩ := List.pairwise_cons.mp ordered
    have le : now ≤ t := least t List.mem_cons_self
    exact ⟨fun u same => Option.some.inj same ▸ le, le, ordered⟩

/-! ### Pruning does not show -/

/-- From a moment on, the overlay has active what the other has, and as many names are taken. -/
structure SeenAs (now : Nat) (o p : Overlay) : Prop where
  active : ∀ t, now ≤ t → o.active t = p.active t
  named : o.named = p.named

namespace SeenAs

variable {now : Nat} {o p : Overlay}

theorem refl (now : Nat) (o : Overlay) : SeenAs now o o := ⟨fun _ _ => rfl, rfl⟩

theorem later (h : SeenAs now o p) {t : Nat} (le : now ≤ t) : SeenAs t o p :=
  ⟨fun u hu => h.active u (Nat.le_trans le hu), h.named⟩

theorem prune (h : SeenAs now o p) {t : Nat} (le : t ≤ now) : SeenAs now (o.prune t) p :=
  ⟨fun u hu => (o.active_prune (Nat.le_trans le hu)).trans (h.active u hu), h.named⟩

/-- A step that both take keeps them alike. -/
theorem after (h : SeenAs now o p) {s : Step} (kept : s.isPrune = false) :
    SeenAs now (o.after s) (p.after s) := by
  cases s with
  | nextUid => exact ⟨h.active, congrArg (· + 1) h.named⟩
  | add m =>
    have added (o : Overlay) (t : Nat) : (o.add m).active t = o.active t ++ [m].filter (·.isActive t) :=
      List.filter_append ..
    refine ⟨fun t le => ?_, h.named⟩
    calc (o.add m).active t = o.active t ++ [m].filter (·.isActive t) := added o t
      _ = p.active t ++ [m].filter (·.isActive t) := by rw [h.active t le]
      _ = (p.add m).active t := (added p t).symm
  | prune t => cases kept
  | clear => exact ⟨fun _ _ => rfl, h.named⟩
  | count t => exact h
  | active t => exact h

theorem answer (h : SeenAs now o p) {s : Step} (le : ∀ t ∈ s.time?, now ≤ t) : o.answer s = p.answer s := by
  cases s with
  | nextUid => exact congrArg (fun named => Answer.uid (uidOf named)) h.named
  | add m => rfl
  | prune t => rfl
  | clear => rfl
  | count t => exact congrArg (fun markers => Answer.count markers.length) (h.active t (le t rfl))
  | active t => exact congrArg Answer.markers (h.active t (le t rfl))

/-- Steps that prune no later than the moment may leave out the pruning. -/
theorem afterAll : ∀ {steps : List Step} {o p : Overlay}, SeenAs now o p →
    (∀ s ∈ steps, ∀ t ∈ s.time?, t ≤ now) →
    SeenAs now (o.afterAll steps) (p.afterAll (steps.filter (!·.isPrune)))
  | [], _, _, h, _ => h
  | s :: rest, o, p, h, past => by
    obtain ⟨first, others⟩ := List.forall_mem_cons.mp past
    by_cases pruned : s.isPrune = true
    · rw [List.filter_cons_of_neg (by simp [pruned])]
      cases s with
      | prune t => exact (h.prune (first t rfl)).afterAll others
      | _ => cases pruned
    · rw [List.filter_cons_of_pos (by simp [pruned])]
      exact (h.after (Bool.eq_false_iff.mpr pruned)).afterAll others

/-- **The log without its prunings is the log of the run without them.** -/
theorem log : ∀ {steps : List Step} {now : Nat} {o p : Overlay}, SeenAs now o p →
    (now :: steps.filterMap Step.time?).Pairwise (· ≤ ·) →
    p.log (steps.filter (!·.isPrune)) = (o.log steps).filter (!·.1.isPrune)
  | [], _, _, _, _, _ => rfl
  | s :: rest, now, o, p, h, ordered => by
    obtain ⟨first, le, others⟩ := ordered_cons ordered
    rw [Overlay.log]
    by_cases pruned : s.isPrune = true
    · rw [List.filter_cons_of_neg (by simp [pruned]), List.filter_cons_of_neg (by simp [pruned])]
      cases s with
      | prune t => exact ((h.later le).prune (Nat.le_refl t)).log others
      | _ => cases pruned
    · have kept : s.isPrune = false := Bool.eq_false_iff.mpr pruned
      rw [List.filter_cons_of_pos (by simp [kept]), List.filter_cons_of_pos (by simp [kept]), Overlay.log,
        h.answer first, ((h.later le).after kept).log others]

end SeenAs

/-- Where times do not decrease, no step before another happens after it. -/
theorem time_le_of_ordered {steps : List Step} (ordered : (steps.filterMap Step.time?).Pairwise (· ≤ ·))
    {n : Nat} {s : Step} (here : steps[n]? = some s) {t : Nat} (timed : s.time? = some t) :
    ∀ r ∈ steps.take n, ∀ u ∈ r.time?, u ≤ t := by
  intro r before u earlier
  obtain ⟨lt, rfl⟩ := List.getElem?_eq_some_iff.mp here
  rw [← List.take_append_drop n steps, List.drop_eq_getElem_cons lt, List.filterMap_append,
    List.filterMap_cons_some timed] at ordered
  exact (List.pairwise_append.mp ordered).2.2 u (List.mem_filterMap.mpr ⟨r, before, earlier⟩) t
    List.mem_cons_self

/-- At a step of a run, active is what was added since the last clearing and has not expired. -/
theorem active_of_ordered (o : Overlay) {steps : List Step}
    (ordered : (steps.filterMap Step.time?).Pairwise (· ≤ ·)) {n : Nat} {s : Step}
    (here : steps[n]? = some s) {t : Nat} (timed : s.time? = some t) :
    (o.afterAll (steps.take n)).active t =
      (standing o.markers (steps.take n)).filter (·.isActive t) := by
  have seen := (SeenAs.refl t o).afterAll (time_le_of_ordered ordered here timed)
  rw [seen.active t (Nat.le_refl t), ← markers_afterAll]
  rfl

/-- **Pruning never shows while time does not run backwards.** The log of a run, less its prunings, is the
log of the run without them. Each time, the active markers are those added since the last clearing, in
the order they were added, less those that expired; and they are as many as are counted. No name is handed
out twice. -/
theorem log_ordered (o : Overlay) (steps : List Step)
    (ordered : (steps.filterMap Step.time?).Pairwise (· ≤ ·)) :
    o.log (steps.filter (!·.isPrune)) = (o.log steps).filter (!·.1.isPrune) ∧
      (∀ n t : Nat, steps[n]? = some (.active t) → (o.log steps)[n]? = some (.active t,
        .markers ((standing o.markers (steps.take n)).filter (·.isActive t)))) ∧
      (∀ n t : Nat, steps[n]? = some (.count t) → (o.log steps)[n]? = some (.count t,
        .count ((standing o.markers (steps.take n)).filter (·.isActive t)).length)) ∧
      ((o.log steps).filterMap (·.2.uid?)).Nodup := by
  refine ⟨(SeenAs.refl 0 o).log (List.pairwise_cons.mpr ⟨fun _ _ => Nat.zero_le _, ordered⟩),
    fun n t here => ?_, fun n t here => ?_, ?_⟩
  · rw [getElem?_log, here, ← active_of_ordered o ordered here rfl]
    rfl
  · rw [getElem?_log, here, ← active_of_ordered o ordered here rfl]
    rfl
  · rw [uids_log]
    exact List.Nodup.map uidOf_injective List.nodup_range'

/-- One marker expires at the moment of pruning, the other stays until it is cleared. -/
theorem log_ordered_expiring :
    let brief : Marker := ⟨uidOf 0, .zero, "", "", 0, some 500⟩
    let lasting : Marker := ⟨uidOf 0, .zero, "", "", 0, none⟩
    let steps : List Step := [.nextUid, .add brief, .add lasting, .count 499, .prune 500, .active 500,
      .clear, .nextUid, .count 500]
    (steps.filterMap Step.time?).Pairwise (· ≤ ·) ∧
      empty.log (steps.filter (!·.isPrune)) = (empty.log steps).filter (!·.1.isPrune) ∧
      (empty.log steps)[5]? = some (.active 500, .markers [lasting]) ∧
      ((empty.log steps).filterMap (·.2.uid?)).Nodup := by
  intro brief lasting steps
  have ordered : (steps.filterMap Step.time?).Pairwise (· ≤ ·) := by decide
  obtain ⟨pruned, actives, -, names⟩ := log_ordered empty steps ordered
  exact ⟨ordered, pruned, actives 5 500 rfl, names⟩

end Overlay

end PageQuery

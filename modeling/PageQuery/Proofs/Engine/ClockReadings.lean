/-
# A fetch does not show how time goes on during it

A fetch reads the clock for each call of a function, while the clock may go on. Only functions are given
the time, so the fetch runs as one at a single moment does as long as each call ends in the same at either
moment and leaves the same behind. What "the same" is to mean is a relation between what the two runs have
kept. It is equality for a clock that stands still. With the parses being right as the relation, the fetch
comes to the same whatever the clock shows. With the overlays the same but for the deadlines, it leaves
the same markers, and none of them expires earlier.

Key definitions: `Run.Related`, `Clock.Tracks`, `Clock.MadeLater`, `Clock.OverlaysAlike`.
Key theorems: `Clock.resolve_tracks`, `Clock.fetchWithin_still`, `Clock.fetchWithin_outcome`,
`Clock.fetchWithin_overlay_alike`.
-/
import PageQuery.Engine.Clock
import PageQuery.Proofs.Engine.HighlightCalls
import PageQuery.Proofs.Engine.History

namespace PageQuery

open Run

variable {α β : Type} {rel : Progress → Progress → Prop}

/-- From related progresses both runs end alike, and they leave related ones. -/
def Run.Related (rel : Progress → Progress → Prop) (m n : Run α) : Prop :=
  ∀ p q, rel p q → (m p).1 = (n q).1 ∧ rel (m p).2 (n q).2

namespace Clock

/-- However often the clock was read, the run ends as the other does from a related progress, and they
leave related ones. -/
def Tracks (rel : Progress → Progress → Prop) (m : ClockedRun α) (n : Run α) : Prop :=
  ∀ reads p q, rel p q → (m reads p).1.map (·.1) = (n q).1 ∧ rel (m reads p).2 (n q).2

theorem Tracks.pure (a : α) : Tracks rel (pure a : ClockedRun α) (Pure.pure a) :=
  fun _ _ _ related => ⟨rfl, related⟩

theorem Tracks.throw (h : Halt) :
    Tracks rel (liftM (throw h : Run α) : ClockedRun α) (MonadExcept.throw h) :=
  fun _ _ _ related => ⟨rfl, related⟩

/-- The run goes on from the readings that it has made. -/
theorem bind_apply_clocked (m : ClockedRun α) (f : α → ClockedRun β) (reads : Nat) (p : Progress) :
    (m >>= f) reads p = match m reads p with
      | (.ok (a, reads'), q) => f a reads' q
      | (.error h, q) => (.error h, q) := by
  refine (bind_apply (m reads) (fun (a, reads') => f a reads') p).trans ?_
  match m reads p with
  | (.ok (_, _), _) => rfl
  | (.error _, _) => rfl

theorem Tracks.bind {m : ClockedRun α} {n : Run α} {f : α → ClockedRun β} {g : α → Run β}
    (hm : Tracks rel m n) (hf : ∀ a, Tracks rel (f a) (g a)) : Tracks rel (m >>= f) (n >>= g) := by
  intro reads p q related
  obtain ⟨same, related⟩ := hm reads p q related
  rw [bind_apply_clocked, bind_apply]
  generalize m reads p = first at *
  generalize n q = second at *
  obtain ⟨r, p'⟩ := first
  obtain ⟨r', q'⟩ := second
  obtain rfl : r.map (·.1) = r' := same
  cases r with
  | ok a => exact hf a.1 a.2 p' q' related
  | error h => exact ⟨rfl, related⟩

/-- A run that is related to another tracks it, since it does not read the clock. -/
theorem Tracks.lift {m n : Run α} (h : Related rel m n) : Tracks rel (liftM m : ClockedRun α) n := by
  intro reads p q related
  obtain ⟨same, related⟩ := h p q related
  have left := bind_apply m (fun a => (Pure.pure (a, reads) : Run (α × Nat))) p
  change (liftM m : ClockedRun α) reads p = _ at left
  rw [left, ← same]
  generalize m p = first at *
  obtain ⟨_ | _, _⟩ := first
  · exact ⟨rfl, related⟩
  · exact ⟨rfl, related⟩

/-! ### Whole fetches -/

section resolution

variable {clock : Clock} {setting : Setting} {functions : Functions}

/-- Queries end alike from related progresses. -/
def QueriesRelated (setting : Setting) (rel : Progress → Progress → Prop) : Prop :=
  ∀ allowComponents query anchor, Related rel (Engine.executeQuery setting allowComponents query anchor)
    (Engine.executeQuery setting allowComponents query anchor)

/-- Every call of a function ends as it does at the one moment, whenever it is made. -/
def CallsRelated (clock : Clock) (setting : Setting) (functions : Functions)
    (rel : Progress → Progress → Prop) : Prop :=
  ∀ {name f}, functions.find? name = some f → ∀ reads input args,
    Related rel (f (setting.moved (clock.shows reads)) input args) (f setting input args)

theorem callFunction_tracks (calls : clock.CallsRelated setting functions rel) (call : FunctionCall)
    (anchor : Anchor) : Tracks rel (clock.callFunction setting functions call anchor)
      (Engine.callFunction setting functions call anchor) := by
  unfold callFunction Engine.callFunction
  cases found : functions.find? call.name with
  | none => exact .throw _
  | some f =>
    -- the reading that the call makes gives its moment, so it has to be fixed first
    intro reads
    exact Tracks.lift (calls found reads _ call.args) (reads + 1)

theorem perform_tracks (queries : QueriesRelated setting rel)
    (calls : clock.CallsRelated setting functions rel) (allowComponents : Bool) (anchor : Anchor) :
    ∀ operation : Operation, Tracks rel (clock.perform setting functions allowComponents operation anchor)
      (Engine.perform setting functions allowComponents operation anchor)
  | .query query => (Tracks.lift (queries allowComponents query anchor)).bind fun _ => .pure _
  | .call call => (callFunction_tracks calls call anchor).bind fun _ => .pure _

variable {again : Json → ClockedRun Anchor} {again' : Json → Run Anchor}

mutual

/-- Contexts become anchors alike if values that are read again do. -/
theorem normalizeBy_tracks (queries : QueriesRelated setting rel)
    (calls : clock.CallsRelated setting functions rel)
    (rereads : ∀ value, Tracks rel (again value) (again' value)) : ∀ context : Context,
      Tracks rel (clock.normalizeBy setting functions again context)
        (Engine.normalizeBy setting functions again' context)
  | .null => .pure _
  | .root true => .pure _
  | .root false => .throw _
  | .node _ => .pure _
  | .nodes _ => .pure _
  | .components _ => .pure _
  | .array items => (normalizeEachBy_tracks queries calls rereads items).bind fun _ => .pure _
  | .fetcher context operation =>
    (normalizeBy_tracks queries calls rereads context).bind fun anchor =>
      (perform_tracks queries calls true anchor operation).bind fun outcome => by
        cases outcome with
        | results _ => exact .pure _
        | value value => exact rereads value

theorem normalizeEachBy_tracks (queries : QueriesRelated setting rel)
    (calls : clock.CallsRelated setting functions rel)
    (rereads : ∀ value, Tracks rel (again value) (again' value)) : ∀ items : List Context,
      Tracks rel (clock.normalizeEachBy setting functions again items)
        (Engine.normalizeEachBy setting functions again' items)
  | [] => .pure _
  | c :: rest => (normalizeBy_tracks queries calls rereads c).bind fun _ =>
    (normalizeEachBy_tracks queries calls rereads rest).bind fun _ => .pure _

end

variable (queries : QueriesRelated setting rel) (calls : clock.CallsRelated setting functions rel)

include queries calls

theorem reread_tracks : ∀ (limit : Nat) (value : Json),
    Tracks rel (clock.reread setting functions limit value) (Engine.reread setting functions limit value)
  | 0, _ => .throw _
  | limit + 1, value => by
    unfold reread Engine.reread
    cases Context.ofJson? value with
    | none => exact .throw _
    | some context => exact normalizeBy_tracks queries calls (reread_tracks limit) context

/-- **A fetch that reads a clock tracks one at a single moment** if its queries and calls do. -/
theorem resolve_tracks (limit : Nat) (fetcher : Fetcher) :
    Tracks rel (clock.resolve setting functions limit fetcher)
      (Engine.resolve setting functions limit fetcher) :=
  (normalizeBy_tracks queries calls (reread_tracks queries calls limit) fetcher.context).bind fun anchor =>
    perform_tracks queries calls _ anchor fetcher.operation

end resolution

/-! ### A clock that stands still -/

theorem related_eq (m : Run α) : Related Eq m m := by
  rintro p _ rfl
  exact ⟨rfl, rfl⟩

/-- **With a clock that stands still, a fetch is the fetch at that moment.** -/
theorem fetchWithin_still (engine : Engine) (limit now : Nat) (fetcher : Fetcher) :
    (still now).fetchWithin engine limit fetcher = engine.fetchWithin limit now fetcher := by
  obtain ⟨outcome, progress⟩ := @resolve_tracks Eq (still now) (engine.settingAt now) engine.functions
    (fun _ _ _ => related_eq _) (fun _ _ _ _ => related_eq _) limit fetcher
    1 (engine.start now) (engine.start now) rfl
  exact Prod.ext outcome (congrArg (fun p : Progress =>
    { engine with selectors := p.selectors, overlay := p.overlay }) progress)

/-! ### What a fetch comes to -/

/-- The parses kept are right on both sides. -/
def BothSound (p q : Progress) : Prop := p.selectors.Sound ∧ q.selectors.Sound

theorem related_of_agree {allowed : Halt → Prop} {m n : Run α} (h : Agree allowed m n) :
    Related BothSound m n := fun p q sound =>
  let ⟨same, _, kept⟩ := h p q sound.1 sound.2
  ⟨same, kept⟩

section outcomes

variable {engine : Engine} (clock : Clock) (noRecord : engine.functions.KeepsNoRecord)

include noRecord

theorem callsRelated_of_noRecord (start : Nat) :
    clock.CallsRelated (engine.settingAt start) engine.functions BothSound :=
  fun {_ _} found reads input args => related_of_agree
    (noRecord.timeless _ (Fields.mem_of_find? found) (engine.settingAt start) start (clock.shows reads)
      input args)

/-- **A fetch comes to the same whatever the clock shows**, as at any one moment. -/
theorem fetchWithin_outcome (sound : engine.selectors.Sound) (limit now : Nat) (fetcher : Fetcher) :
    (clock.fetchWithin engine limit fetcher).1 = (engine.fetchWithin limit now fetcher).1 := by
  let start := clock.shows 0
  have tracks : Tracks BothSound (clock.resolve (engine.settingAt start) engine.functions limit fetcher)
      (Engine.resolve (engine.settingAt start) engine.functions limit fetcher) :=
    resolve_tracks (fun _ _ _ => related_of_agree (Engine.executeQuery_settles _ _))
      (callsRelated_of_noRecord clock noRecord start) limit fetcher
  calc (clock.fetchWithin engine limit fetcher).1
      = (Engine.resolve (engine.settingAt start) engine.functions limit fetcher (engine.start start)).1 :=
        (tracks 1 (engine.start start) (engine.start start) ⟨sound, sound⟩).1
    _ = outcome (Engine.resolve (engine.settingAt start) engine.functions limit fetcher) :=
        (Engine.resolve_settles noRecord.settled limit fetcher).apply sound
    _ = outcome (Engine.resolve (engine.settingAt now) engine.functions limit fetcher) :=
        @Engine.outcome_resolve_moved now start (engine.settingAt now) _ noRecord.settled
          (noRecord.steady now start) limit fetcher
    _ = (engine.fetchWithin limit now fetcher).1 :=
        ((Engine.resolve_settles noRecord.settled limit fetcher).apply sound).symm

end outcomes

/-! ### What a fetch leaves -/

/-- The marker is the other one, but that a highlight made it when the clock was read another time. -/
structure MadeLater (clock : Clock) (m m₀ : Marker) : Prop where
  same : { m with expires? := m₀.expires? } = m₀
  deadline : m.expires? = m₀.expires? ∨ ∃ k ms, m.expires? = some (clock.shows k + ms) ∧
    m₀.expires? = some (clock.shows 0 + ms)

/-- The same names were handed out, and the markers are the same but for the reading that they are from. -/
structure OverlaysAlike (clock : Clock) (o o₀ : Overlay) : Prop where
  named : o.named = o₀.named
  markers : List.Forall₂ clock.MadeLater o.markers o₀.markers

variable {clock : Clock}

theorem MadeLater.refl (m : Marker) : clock.MadeLater m m := ⟨rfl, .inl rfl⟩

theorem OverlaysAlike.refl (o : Overlay) : clock.OverlaysAlike o o :=
  ⟨rfl, List.forall₂_same.mpr fun m _ => .refl m⟩

/-- It expires no earlier, since the clock does not go back. -/
theorem MadeLater.isActive {m m₀ : Marker} (h : clock.MadeLater m m₀) {now : Nat}
    (active : m₀.isActive now = true) : m.isActive now = true := by
  unfold Marker.isActive at *
  rcases h.deadline with same | ⟨k, ms, later, first⟩
  · rwa [same]
  · have goesOn := clock.forward (Nat.zero_le k)
    rw [first] at active
    rw [later]
    simp only [decide_eq_true_eq] at *
    omega

/-- At any moment there are at least as many active markers. -/
theorem OverlaysAlike.count_le {o o₀ : Overlay} (h : clock.OverlaysAlike o o₀) (now : Nat) :
    o₀.count now ≤ o.count now := by
  have each := h.markers
  unfold Overlay.count Overlay.active
  generalize o.markers = markers, o₀.markers = markers₀ at each
  induction each with
  | nil => exact Nat.le_refl _
  | @cons m m₀ rest rest₀ one _ ih =>
    simp only [List.filter_cons]
    cases active : m₀.isActive now with
    | true =>
      rw [one.isActive active]
      exact Nat.succ_le_succ ih
    | false =>
      refine Nat.le_trans ih ?_
      split
      · exact Nat.le_succ _
      · exact Nat.le_refl _

/-- Made at two readings, a marker differs in its deadline only. -/
theorem madeLater_marker {setting : Setting} (start : setting.now = clock.shows 0) (uid : String) (k : Nat)
    (rect : Rect) : ∀ timeout? : Option Nat, clock.MadeLater
      ((setting.moved (clock.shows k)).marker uid timeout? rect) (setting.marker uid timeout? rect)
  | none => .refl _
  | some 0 => .refl _
  | some (ms + 1) => ⟨rfl, .inr ⟨k, ms + 1, rfl, congrArg (fun now => some (now + (ms + 1))) start⟩⟩

/-- The parses kept are right on both sides, and the overlays are alike. -/
def BothAlike (clock : Clock) (p q : Progress) : Prop :=
  BothSound p q ∧ clock.OverlaysAlike p.overlay q.overlay

theorem related_of_spares {allowed : Halt → Prop} {m n : Run α} (agree : Agree allowed m n)
    (left : SparesOverlay m) (right : SparesOverlay n) : Related clock.BothAlike m n := by
  rintro p q ⟨sound, alike⟩
  obtain ⟨same, kept⟩ := related_of_agree agree p q sound
  refine ⟨same, kept, ?_⟩
  rw [left p, right q]
  exact alike

/-- A highlight marks the same boxes, whenever it is called. -/
theorem highlight_related {setting : Setting} (start : setting.now = clock.shows 0) (k : Nat)
    (input : ResultSet) (args : List Json) : Related clock.BothAlike
      (Functions.highlight (setting.moved (clock.shows k)) input args)
      (Functions.highlight setting input args) := by
  rintro p q ⟨sound, alike⟩
  obtain ⟨same, kept⟩ := related_of_agree
    (Functions.highlight_timeless setting setting.now (clock.shows k) input args) p q sound
  refine ⟨same, kept, ?_⟩
  cases timed : Functions.timeoutOf setting.config args with
  | error e =>
    have refused := @Functions.highlight_untimed (setting.moved (clock.shows k)) _ _ timed input
    have refused₀ := Functions.highlight_untimed timed input
    rw [refused, refused₀]
    exact alike
  | ok timeout? =>
    obtain ⟨p', run, marked⟩ :=
      @Functions.highlight_apply (setting.moved (clock.shows k)) _ _ timed input p
    obtain ⟨q', run', marked'⟩ := Functions.highlight_apply timed input q
    have uid : p.overlay.nextUid.1 = q.overlay.nextUid.1 := by
      unfold Overlay.nextUid
      rw [alike.named]
    rw [run, run', marked, marked', uid]
    refine ⟨congrArg (· + 1) alike.named, List.rel_append alike.markers ?_⟩
    rw [List.forall₂_map_left_iff, List.forall₂_map_right_iff]
    exact List.forall₂_same.mpr fun rect _ => madeLater_marker start _ k rect timeout?

/-- **A fetch leaves the overlay as at the moment of its first reading**, but for the deadlines of the
markers, which lie later by as much as the clock went on until they were made. -/
theorem fetchWithin_overlay_alike {engine : Engine} (noRecord : engine.functions.KeepsNoRecord)
    (only : engine.functions.OnlyHighlight) (sound : engine.selectors.Sound) (limit : Nat)
    (fetcher : Fetcher) : clock.OverlaysAlike (clock.fetchWithin engine limit fetcher).2.overlay
      (engine.fetchWithin limit (clock.shows 0) fetcher).2.overlay := by
  have calls : clock.CallsRelated (engine.settingAt (clock.shows 0)) engine.functions clock.BothAlike := by
    intro name f found reads input args
    by_cases marks : name = "highlight"
    · subst marks
      obtain rfl := Option.some.inj (only.highlight.symm.trans found)
      exact highlight_related rfl reads input args
    · have spares := only.others found marks
      exact related_of_spares (noRecord.timeless _ (Fields.mem_of_find? found)
        (engine.settingAt (clock.shows 0)) (clock.shows 0) (clock.shows reads) input args)
        (spares _ _ _) (spares _ _ _)
  have tracks := resolve_tracks (fun _ _ _ => related_of_spares (Engine.executeQuery_settles _ _)
    (Engine.executeQuery_spares _ _) (Engine.executeQuery_spares _ _)) calls limit fetcher
  exact (tracks 1 (engine.start (clock.shows 0)) (engine.start (clock.shows 0))
    ⟨⟨sound, sound⟩, .refl _⟩).2.2

end Clock

end PageQuery

/-
# Where rendering puts what portals hold

A portal that has its turn adds what it holds behind what its target has by then. The target has been
met before, and it stays the target: later elements with its id come too late. When all portals have
had their turn, every node has been met, and each element has what it shows itself and then what the
portals to it do.

Key definitions: `PortalsDrawn`, `Fixture.Laid`.
Key theorems: `Render.portals_drawn`, `Fixture.Laid.next`, `Fixture.Laid.run`, `Fixture.render_laid`.
-/
import PageQuery.Proofs.Fixture.Log

namespace PageQuery

open ElementTree FixtureNode Render RenderState

/-! ### All portals have their turn -/

/-- Looking up a target finds the body or the first element that is known by the id. -/
def RenderState.TargetIs (s : RenderState) (target : String) (n : Nat) : Prop :=
  target = "body" ∧ n = 2 ∨ target ≠ "body" ∧ Fields.find? target s.ids = some n

/-- Portals are drawn into a document until none waits. -/
inductive PortalsDrawn : ElementTree → RenderState → ElementTree → RenderState → Prop
  | done {document : ElementTree} {s : RenderState} :
    s.pending = [] → PortalsDrawn document s document s
  | next {document result : ElementTree} {s t u : RenderState} {portal : PendingPortal}
    {rest : List PendingPortal} {n : Nat} {trees : List ElementTree} :
    s.pending = portal :: rest → s.TargetIs portal.target n →
    Drawn portal.owner portal.children { s with pending := rest } trees t →
    PortalsDrawn (document.appendTo n trees) t result u → PortalsDrawn document s result u

namespace Render

variable {s t : RenderState}

/-- The number of portals that are still to have their turn, those in others included. -/
def turnsLeft : List PendingPortal → Nat
  | [] => 0
  | waiting :: rest => 1 + portalCountAll waiting.children + turnsLeft rest

@[simp] theorem turnsLeft_append (second : List PendingPortal) : ∀ first : List PendingPortal,
    turnsLeft (first ++ second) = turnsLeft first + turnsLeft second
  | [] => (Nat.zero_add _).symm
  | waiting :: rest => by
    rw [List.cons_append, turnsLeft, turnsLeft, turnsLeft_append second rest]
    omega

/-- Drawing nodes leaves their portals for later. -/
theorem turnsLeft_drawn {owner : InstanceId} {nodes : List FixtureNode} {trees : List ElementTree}
    (drawn : Drawn owner nodes s trees t) : turnsLeft t.pending = turnsLeft s.pending + portalCountAll nodes := by
  induction drawn with
  | nothing => rfl
  | text _ ih => rw [ih, portalCountAll, portalCount, Nat.zero_add]
  | @element owner tag attributes _ _ _ _ s _ _ _ _ _ _ inner outer =>
    have same : (s.hosting owner tag attributes).pending = s.pending := rfl
    rw [outer, inner, same, portalCountAll, portalCount, Nat.add_assoc]
  | @component owner name kind displayName? props _ _ s _ _ _ _ _ _ inner outer =>
    have same : (s.placing owner name kind displayName? props).pending = s.pending := by
      show (s.backing kind).pending = _
      cases kind <;> rfl
    rw [outer, inner, same, portalCountAll, portalCount, Nat.add_assoc]
  | @portal owner target children _ s _ _ _ ih =>
    have more : turnsLeft (s.deferring owner target children).pending =
        turnsLeft s.pending + (1 + portalCountAll children) := turnsLeft_append _ s.pending
    rw [ih, more, portalCountAll, portalCount, Nat.add_assoc]

theorem pending_of_markupDrawn {nodes : List FixtureNode} {trees : List ElementTree}
    (drawn : MarkupDrawn nodes s trees t) : t.pending = s.pending := by
  induction drawn with
  | nothing => rfl
  | text _ ih => exact ih
  | element _ _ inner outer => exact outer.trans inner

theorem targetIs_of_targetOf {target : String} {n : Nat} (h : targetOf 2 target s = .ok (n, t)) :
    t = s ∧ s.TargetIs target n := by
  unfold targetOf at h
  split at h
  · next body =>
    cases h
    exact ⟨rfl, .inl ⟨body, rfl⟩⟩
  · next other =>
    split at h
    · next found =>
      cases h
      exact ⟨rfl, .inr ⟨other, found⟩⟩
    · cases h

/-- **With a turn for each portal, none is left.** -/
theorem portals_drawn : ∀ {count : Nat} {document result : ElementTree} {s t : RenderState},
    turnsLeft s.pending ≤ count → portals 2 count document s = .ok (result, t) →
      PortalsDrawn document s result t
  | 0, _, _, s, _, low, h => by
    obtain ⟨rfl, rfl⟩ := pure_eq_ok.mp h
    refine .done ?_
    cases pending : s.pending with
    | nil => rfl
    | cons portal rest =>
      rw [pending, turnsLeft] at low
      omega
  | count + 1, document, result, s, t, low, h => by
    rw [portals] at h
    obtain ⟨portal?, s₁, next, h⟩ := bind_eq_ok.mp h
    unfold nextPending at next
    split at next
    · next none =>
      cases next
      obtain ⟨rfl, rfl⟩ := pure_eq_ok.mp h
      exact .done none
    · next portal rest pending =>
      cases next
      obtain ⟨n, s₂, target, h⟩ := bind_eq_ok.mp h
      obtain ⟨trees, s₃, inner, others⟩ := bind_eq_ok.mp h
      obtain ⟨rfl, found⟩ := targetIs_of_targetOf target
      have drawn := appNodes_drawn inner
      refine .next pending found drawn (portals_drawn ?_ others)
      have later := turnsLeft_drawn drawn
      dsimp only at later
      rw [pending, turnsLeft] at low
      omega

end Render

namespace Fixture

/-! ### Portals -/

/-- What there is while portals have their turns. Those that had theirs have targets that were met. -/
structure Laid (f : Fixture) (done queue log : List DeclaredNode) (document : ElementTree)
    (s : RenderState) : Prop where
  turn : f.document.Turn done queue log
  records : f.Records log queue s
  fitted : f.Fitted log (portalContent log done) document
  settled : ∀ portal ∈ done, ∃ e ∈ log, targetPath? log portal.2 = some e.1

variable {f : Fixture} {done queue log more : List DeclaredNode} {document : ElementTree}
  {s t : RenderState} {portal d : DeclaredNode} {node : FixtureNode} {path : List Nat} {n : Nat}

/-- An element that comes later is no target of a portal that has one. -/
theorem targetPath?_mono (h : targetPath? log node = some path) :
    targetPath? (log ++ more) node = some path := by
  obtain ⟨target, declared, found⟩ := Option.bind_eq_some_iff.mp h
  rw [targetPath?, declared, Option.bind_some]
  split
  · next body => rwa [if_pos body] at found
  · next other =>
    rw [if_neg other] at found
    obtain ⟨e, first, same⟩ := Option.map_eq_some_iff.mp found
    rw [List.find?_append, first]
    exact congrArg some same

theorem portalContent_mono (settled : ∀ portal ∈ done, ∃ e ∈ log, targetPath? log portal.2 = some e.1) :
    portalContent (log ++ more) done = portalContent log done := by
  funext path
  refine congrArg (List.flatMap _) (List.filter_congr fun portal mem => ?_)
  obtain ⟨e, -, target⟩ := settled portal mem
  rw [target, targetPath?_mono target]

/-- The last of some portals shows what it holds in its target. -/
theorem portalContent_concat : portalContent log (done ++ [portal]) path = portalContent log done path ++
    if targetPath? log portal.2 = some path then shownAll portal.1 0 portal.2.children else [] := by
  rw [portalContent, List.filter_append, List.flatMap_append]
  refine congrArg (portalContent log done path ++ ·) ?_
  by_cases target : targetPath? log portal.2 = some path <;> simp [target]

theorem portalContent_eq_nil (other : ∀ portal ∈ done, targetPath? log portal.2 ≠ some path) :
    portalContent log done path = [] := by
  rw [portalContent, List.filter_eq_nil_iff.mpr fun portal mem => by simpa using other portal mem]
  rfl

/-- Only elements have an id, so the first node with one is the first element with it. -/
theorem find?_made (id : String) : (made log).find? (fun d => d.2.id? == some id) =
    log.find? fun d => d.2.id? == some id := by
  rw [made, List.find?_filter]
  refine congrArg (fun test => log.find? test) (funext fun ⟨_, node⟩ => ?_)
  rw [Bool.eq_iff_iff]
  cases node <;> simp [isElement, id?]

/-- The target that is looked up is the target of the portal. -/
theorem Records.exists_target (h : f.Records log queue s) (turn : f.document.Turn done queue log)
    {target : String} {children : List FixtureNode} (found : s.TargetIs target n) :
    ∃ e, (made log)[n]? = some e ∧ targetPath? log (.portal target children) = some e.1 := by
  show ∃ e, _ ∧ (if target = "body" then _ else _) = _
  rcases found with ⟨body, rfl⟩ | ⟨other, found⟩
  · rw [if_pos body, turn.drawn_eq, met_document]
    exact ⟨(bodyPath, f.body), rfl, rfl⟩
  · rw [h.counts.ids] at found
    obtain ⟨inside, same, first⟩ := List.findIdx?_eq_some_iff_getElem.mp found
    have here : (made log).find? (fun d => d.2.id? == some target) = some (made log)[n] :=
      List.find?_eq_some_iff_getElem.mpr ⟨same, n, inside, rfl, fun j lt => by simpa using first j lt⟩
    rw [if_neg other, ← find?_made, here]
    exact ⟨(made log)[n], List.getElem?_eq_getElem inside, rfl⟩

theorem mem_of_getElem?_made (h : (made log)[n]? = some d) : d ∈ log :=
  (List.mem_filter.mp (List.mem_of_getElem? h)).1

/-- Elements that were made apart have paths of their own. -/
theorem eq_of_path_made {m : Nat} {e : DeclaredNode} (once : (log.map (·.1)).Nodup)
    (first : (made log)[m]? = some d) (second : (made log)[n]? = some e) (same : d.1 = e.1) : m = n := by
  have once : ((made log).map (·.1)).Nodup := once.sublist (List.filter_sublist.map _)
  have inside : m < ((made log).map (·.1)).length := by
    rw [List.length_map]
    exact (List.getElem?_eq_some_iff.mp first).1
  refine (List.getElem?_inj inside once).mp ?_
  rw [List.getElem?_map, List.getElem?_map, first, second]
  exact congrArg some same

/-- What is added to elements of a tree changes nothing about what else it shows. -/
theorem DrawnAs.appendTo {item : ContentItem (List Nat)} {tree : ElementTree} {trees : List ElementTree}
    (h : DrawnAs log item tree) : DrawnAs log item (tree.appendTo n trees) := by
  cases h with
  | text => exact .text
  | element here => exact .element here

theorem forall₂_drawnAs_appendToAll {trees : List ElementTree} {items : List (ContentItem (List Nat))}
    {content : List ElementTree} (h : List.Forall₂ (DrawnAs log) items content) :
    List.Forall₂ (DrawnAs log) items (appendToAll n trees content) := by
  induction h with
  | nil => exact .nil
  | cons first _ ih => exact .cons first.appendTo ih

/-- One more list of trees stands behind what one of the elements holds. -/
theorem Fits.appendTo {added added' : List Nat → List (ContentItem (List Nat))} {head : ElementHead}
    {content trees : List ElementTree} {e : DeclaredNode} {shown : List (ContentItem (List Nat))}
    (fits : f.Fits log added head content d) (once : (log.map (·.1)).Nodup)
    (here : (made log)[n]? = some e) (shows : List.Forall₂ (DrawnAs (log ++ more)) shown trees)
    (more_added : added' d.1 = added d.1 ++ if some e.1 = some d.1 then shown else []) :
    f.Fits (log ++ more) added' head
      (if head.serial = n then appendToAll n trees content ++ trees else appendToAll n trees content) d where
  here := getElem?_made_mono fits.here
  renders := fits.renders
  host i host := (fits.host i host).mono
  hosted := fits.hosted
  content := by
    have before : List.Forall₂ (DrawnAs (log ++ more)) (ownContent d.1 d.2 ++ added d.1)
        (appendToAll n trees content) :=
      forall₂_drawnAs_appendToAll (fits.content.imp fun _ _ => DrawnAs.mono)
    rw [more_added, ← List.append_assoc]
    by_cases target : head.serial = n
    · have same : e = d := by
        have there := fits.here
        rw [target, here] at there
        exact Option.some.inj there
      rw [if_pos target, if_pos (congrArg _ (congrArg _ same))]
      exact List.rel_append before shows
    · have apart : some e.1 ≠ some d.1 := fun same =>
        target (eq_of_path_made once fits.here here (Option.some.inj same).symm)
      rw [if_neg target, if_neg apart, List.append_nil]
      exact before

/-- **A portal has its turn.** What it holds comes to stand behind all else in its target. -/
theorem Laid.next {pending : PendingPortal} {rest : List PendingPortal} {trees : List ElementTree}
    (h : f.Laid done (portal :: queue) log document s) (waits : s.pending = pending :: rest)
    (found : s.TargetIs pending.target n)
    (drawn : Drawn pending.owner pending.children { s with pending := rest } trees t) :
    f.Laid (done ++ [portal])
      (queue ++ (metAll portal.1 0 portal.2.children).filter (·.2.isPortal))
      (log ++ metAll portal.1 0 portal.2.children) (document.appendTo n trees) t := by
  have awaits := h.records.pending
  rw [waits] at awaits
  cases awaits with
  | cons first others =>
    cases first with
    | @portal path target children owner inside names =>
      have popped : f.Records log queue { s with pending := rest } :=
        ⟨⟨h.records.counts.serial, h.records.counts.ids⟩, h.records.instances, others⟩
      have adds := drawn.adds path 0 popped inside names
      obtain ⟨e, here, aim⟩ : ∃ e, (made log)[n]? = some e ∧
          targetPath? log (.portal target children) = some e.1 := h.records.exists_target h.turn found
      have settled : ∀ portal ∈ done ++ [(path, .portal target children)],
          ∃ e ∈ log, targetPath? log portal.2 = some e.1 := by
        intro portal mem
        rcases List.mem_append.mp mem with old | new
        · exact h.settled portal old
        · exact ⟨e, mem_of_getElem?_made here, List.mem_singleton.mp new ▸ aim⟩
      refine ⟨h.turn.next, adds.records, ?_, fun portal mem => ?_⟩
      · rw [portalContent_mono settled]
        refine Everywhere.appendTo (adds.fits _ fun d new => ?_) (fun head content => ?_) h.fitted
        · -- what is in the portal has not been met, as targets have
          refine portalContent_eq_nil fun portal mem aim => ?_
          obtain ⟨e, old, target⟩ := settled portal mem
          exact h.turn.fresh old new (Option.some.inj (target.symm.trans aim))
        · rintro ⟨d, fits⟩
          refine ⟨d, fits.appendTo h.turn.nodup here adds.shows ?_⟩
          rw [portalContent_concat, aim]
          rfl
      · obtain ⟨e, old, target⟩ := settled portal mem
        exact ⟨e, List.mem_append_left _ old, targetPath?_mono target⟩

/-- The run: by induction on the portals as they have their turns. -/
theorem Laid.run {result : ElementTree} (run : PortalsDrawn document s result t) :
    ∀ {done queue log : List DeclaredNode}, f.Laid done queue log document s →
      ∃ done log, f.Laid done [] log result t := by
  induction run with
  | done none =>
    intro done queue log h
    have waits := h.records.pending
    rw [none, List.forall₂_nil_right_iff] at waits
    exact ⟨done, log, waits ▸ h⟩
  | next waits found drawn _ ih =>
    intro done queue log h
    cases queue with
    | nil =>
      have waiting := h.records.pending
      rw [waits] at waiting
      cases waiting
    | cons portal queue => exact ih (h.next waits found drawn)

/-- Before portals have their turns, what stands in none of them is laid out, and there are turns for all. -/
theorem laid_start {markup app : List ElementTree} (outside : MarkupDrawn f.markup ⟨3, [], [], 0, []⟩ markup s)
    (inside : Drawn s.nextInstance f.app s.mounted app t) :
    f.Laid [] ((met [] f.document).filter (·.2.isPortal)) (met [] f.document)
      (rootDocument s.serial markup app) t ∧ turnsLeft t.pending ≤ portalCountAll f.app := by
  have adds := rootDocument_adds outside inside
  refine ⟨⟨.start _, adds.records, (adds.fits _ fun _ _ => rfl).1, nofun⟩, ?_⟩
  rw [turnsLeft_drawn inside]
  have none : s.mounted.pending = [] := pending_of_markupDrawn outside
  rw [none]
  exact Nat.le_of_eq (Nat.zero_add _)

/-- **Rendering meets every node and lays all of them out.** -/
theorem render_laid {r : Rendering} (h : f.render = .ok r) :
    ∃ done log s, f.Laid done [] log r.document s ∧ Shows r.document s ∧ r.instances = s.instances := by
  unfold render at h
  cases rendered : f.renderDocument ⟨0, [], [], 0, []⟩ with
  | error x => rw [rendered] at h; cases h
  | ok result =>
    rw [rendered] at h
    obtain rfl := Except.ok.inj h
    obtain ⟨markup, s, app, t, outside, inside, last⟩ := renderDocument_cases rendered
    obtain ⟨start, left⟩ := laid_start outside inside
    obtain ⟨done, log, laid⟩ := start.run (portals_drawn left last)
    exact ⟨done, log, result.2, laid, renderDocument_shows rendered, rfl⟩

end Fixture

end PageQuery

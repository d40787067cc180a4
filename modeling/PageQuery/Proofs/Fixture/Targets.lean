/-
# Which portals find their targets

When a portal has its turn, its target is looked up among the elements that have been met. An element has
been met when all portals around it have had their turns, and turns are in order. So a portal finds its
target just if that is the body or an element around which all portals have earlier turns
(`FixtureNode.InTime`). Rendering succeeds when this holds of every portal, all tags are tag names and
there are only texts and elements outside the app; else it fails, and its error tells which of these is
not so.

Every portal that finds its target is resolved (`FixtureNode.Resolved`), which says the same but does not
ask for the order of turns.

Key definitions: `Render.Judges`, `FixtureNode.Resolved`, `FixtureNode.InTime`, `Fixture.Proper`,
`Fixture.Timely`.
Key theorems: `Fixture.Laid.exists_target_iff`, `Fixture.Laid.verdict_next`, `Fixture.Laid.verdict`,
`Fixture.render_ok_iff`, `Fixture.resolved_of_render`, `Fixture.exists_of_unknownPortalTarget`.
-/
import PageQuery.Proofs.Fixture.Layout
import PageQuery.Proofs.Fixture.Tags
import PageQuery.Proofs.Fixture.Turns

namespace PageQuery

open ElementTree FixtureNode Render RenderState

/-! ### Nodes that can be drawn -/

namespace FixtureNode

/-- The tag of an element is a tag name. -/
def HasTagName : FixtureNode → Prop
  | .element tag _ _ _ _ => isTagName tag.toList = true
  | _ => True

/-- A node may stand outside the app. -/
def IsPlain : FixtureNode → Prop
  | .text _ => True
  | .element _ _ _ _ _ => True
  | _ => False

end FixtureNode

namespace Render

/-- A computation succeeds if some nodes are as they should be. Else it fails, and not for the lack of a
target. -/
def Judges {α : Type} (fine : FixtureNode → Prop) (nodes : List DeclaredNode) (r : Render α)
    (s : RenderState) : Prop :=
  (∃ a t, r s = .ok (a, t) ∧ ∀ d ∈ nodes, fine d.2) ∨
    ∃ e, r s = .error e ∧ (∀ target, e ≠ .unknownPortalTarget target) ∧ ∃ d ∈ nodes, ¬fine d.2

section judging

variable {α β : Type} {fine : FixtureNode → Prop} {nodes more : List DeclaredNode} {s : RenderState}
  {r : Render α} {k : α → Render β}

theorem Judges.pure (a : α) : Judges fine [] (pure a : Render α) s := .inl ⟨a, s, rfl, nofun⟩

/-- A step after another. -/
theorem Judges.bind (h : Judges fine nodes r s) (h' : ∀ a t, Judges fine more (k a) t) :
    Judges fine (nodes ++ more) (r >>= k) s := by
  have step : (r >>= k) s = (r s).bind fun p => k p.1 p.2 := rfl
  rw [Judges, step]
  rcases h with ⟨a, t, ok, first⟩ | ⟨e, error, other, d, mem, bad⟩
  · rw [ok, ok_bind]
    rcases h' a t with ⟨b, u, ok', later⟩ | ⟨e, error, other, d, mem, bad⟩
    · exact .inl ⟨b, u, ok', List.forall_mem_append.mpr ⟨first, later⟩⟩
    · exact .inr ⟨e, error, other, d, List.mem_append_right _ mem, bad⟩
  · exact .inr ⟨e, by rw [error]; rfl, other, d, List.mem_append_left _ mem, bad⟩

/-- A step that cannot fail comes first. -/
theorem Judges.after (total : ∃ a t, r s = .ok (a, t)) (h : ∀ a t, Judges fine nodes (k a) t) :
    Judges fine nodes (r >>= k) s := by
  obtain ⟨a, t, ok⟩ := total
  have first : Judges fine [] r s := .inl ⟨a, t, ok, nofun⟩
  exact first.bind h

/-- A result is made of what a computation gives. -/
theorem Judges.map (h : Judges fine nodes r s) (f : α → β) :
    Judges fine nodes (r >>= fun a => Pure.pure (f a)) s := by
  have whole := h.bind fun a t => Judges.pure (s := t) (f a)
  rwa [List.append_nil] at whole

theorem checkTag_judges (path : List Nat) {tag : String} {node : FixtureNode}
    (named : fine node ↔ isTagName tag.toList = true) : Judges fine [(path, node)] (checkTag tag) s := by
  unfold checkTag
  split
  · next name => exact .inl ⟨(), s, rfl, by simpa using named.mpr name⟩
  · next other => exact .inr ⟨_, rfl, nofun, _, List.mem_singleton_self _, fun h => other (named.mp h)⟩

end judging

mutual

/-- A node outside the app, with what is met in it. -/
theorem markupNode_judges : ∀ (node : FixtureNode) (path : List Nat) (s : RenderState),
    Judges (fun node => node.IsPlain ∧ node.HasTagName) (met path node) (markupNode node) s
  | .text x, path, s => by
    refine .inl ⟨_, s, rfl, fun d mem => ?_⟩
    rw [List.mem_singleton.mp mem]
    exact ⟨trivial, trivial⟩
  | .component .., _, _ => .inr ⟨_, rfl, nofun, _, List.mem_cons_self, fun h => h.1⟩
  | .portal .., _, _ => .inr ⟨_, rfl, nofun, _, List.mem_cons_self, fun h => h.1⟩
  | .element tag attributes text? rect? children, path, s => by
    rw [markupNode]
    refine (checkTag_judges path ?_).bind fun _ s => ?_
    · exact and_iff_right trivial
    · refine .after ⟨_, _, rfl⟩ fun serial s => ?_
      exact (markupNodes_judges children path 0 s).map _

theorem markupNodes_judges : ∀ (nodes : List FixtureNode) (path : List Nat) (place : Nat) (s : RenderState),
    Judges (fun node => node.IsPlain ∧ node.HasTagName) (metAll path place nodes) (markupNodes nodes) s
  | [], _, _, _ => .pure _
  | node :: rest, path, place, s => by
    rw [markupNodes, metAll]
    exact (markupNode_judges node _ s).bind fun trees s => (markupNodes_judges rest path _ s).map _

end

mutual

/-- A node of the app, with what is met in it. What is in a portal is not looked at. -/
theorem appNode_judges : ∀ (node : FixtureNode) (owner : InstanceId) (path : List Nat) (s : RenderState),
    Judges HasTagName (met path node) (appNode owner node) s
  | .text x, _, path, s => by
    refine .inl ⟨_, s, rfl, fun d mem => ?_⟩
    rw [List.mem_singleton.mp mem]
    trivial
  | .component name kind displayName? props children, owner, path, s => by
    have backed : Judges HasTagName [(path, .component name kind displayName? props children)]
        (componentBacking? kind) s := .inl ⟨_, _, componentBacking?_eq kind s, by simp [HasTagName]⟩
    rw [appNode]
    exact backed.bind fun backing? s => .after ⟨_, _, rfl⟩ fun i s => appNodes_judges children i path 0 s
  | .portal target children, owner, path, s => by
    refine .inl ⟨_, _, rfl, fun d mem => ?_⟩
    rw [List.mem_singleton.mp mem]
    trivial
  | .element tag attributes text? rect? children, owner, path, s => by
    rw [appNode]
    refine (checkTag_judges path Iff.rfl).bind fun _ s => ?_
    refine .after ⟨_, _, rfl⟩ fun serial s => .after ⟨_, _, rfl⟩ fun host s => ?_
    exact (appNodes_judges children host path 0 s).map _

theorem appNodes_judges : ∀ (nodes : List FixtureNode) (owner : InstanceId) (path : List Nat) (place : Nat)
    (s : RenderState), Judges HasTagName (metAll path place nodes) (appNodes owner nodes) s
  | [], _, _, _, _ => .pure _
  | node :: rest, owner, path, place, s => by
    rw [appNodes, metAll]
    exact (appNode_judges node owner _ s).bind fun trees s => (appNodes_judges rest owner path _ s).map _

end

/-! ### Turns -/

theorem turnsLeft_eq_zero {pending : List PendingPortal} (none : turnsLeft pending = 0) : pending = [] := by
  cases pending with
  | nil => rfl
  | cons waiting rest =>
    rw [turnsLeft] at none
    omega

theorem portals_of_none {body count : Nat} {document : ElementTree} {s : RenderState}
    (none : s.pending = []) : portals body count document s = .ok (document, s) := by
  cases count with
  | zero => rfl
  | succ count =>
    show (nextPending s).bind _ = _
    rw [nextPending, none]
    rfl

/-- One turn. -/
theorem portals_of_next {body count : Nat} {document : ElementTree} {s : RenderState}
    {portal : PendingPortal} {rest : List PendingPortal} (next : s.pending = portal :: rest) :
    portals body (count + 1) document s = (targetOf body portal.target { s with pending := rest }).bind
      fun found => (appNodes portal.owner portal.children found.2).bind fun drawn =>
        portals body count (document.appendTo found.1 drawn.1) drawn.2 := by
  show (nextPending s).bind _ = _
  rw [nextPending, next]
  rfl

/-- The target is found, which changes nothing, or there is none. -/
theorem targetOf_judges (target : String) (s : RenderState) :
    (∃ n, s.TargetIs target n ∧ targetOf 2 target s = .ok (n, s)) ∨
      (∀ n, ¬s.TargetIs target n) ∧ targetOf 2 target s = .error (.unknownPortalTarget target) := by
  unfold targetOf RenderState.TargetIs
  by_cases body : target = "body"
  · exact .inl ⟨2, .inl ⟨body, rfl⟩, if_pos body⟩
  · simp only [if_neg body]
    cases found : Fields.find? target s.ids with
    | some n => exact .inl ⟨n, .inr ⟨body, rfl⟩, rfl⟩
    | none => exact .inr ⟨fun n h => by simp [body] at h, rfl⟩

end Render

/-- When no portal is left none waits. -/
theorem Fixture.Records.queue_eq_nil {f : Fixture} {log queue : List DeclaredNode} {s : RenderState}
    (h : f.Records log queue s) (none : s.pending = []) : queue = [] := by
  have waits := h.pending
  rwa [none, List.forall₂_nil_right_iff] at waits

/-! ### Resolved portals and targets in time -/

namespace FixtureNode

/-- A portal is resolved if all portals around it are and its target is the body or the id of an element
around which all portals are resolved. -/
inductive Resolved (top : FixtureNode) : List Nat → Prop
  | body {path : List Nat} {children : List FixtureNode} :
    top.at? path = some (.portal "body" children) →
    (∀ outer, top.Encloses outer path → Resolved top outer) → Resolved top path
  | element {path place : List Nat} {target : String} {children : List FixtureNode} {node : FixtureNode} :
    top.at? path = some (.portal target children) →
    (∀ outer, top.Encloses outer path → Resolved top outer) →
    top.at? place = some node → node.id? = some target →
    (∀ outer, top.Encloses outer place → Resolved top outer) → Resolved top path

/-- The target of a portal that is resolved is the body or the id of an element. -/
theorem Resolved.exists_id {top : FixtureNode} {path : List Nat} {target : String}
    {children : List FixtureNode} (h : top.Resolved path)
    (here : top.at? path = some (.portal target children)) :
    target = "body" ∨ ∃ place node, top.at? place = some node ∧ node.id? = some target := by
  cases h with
  | body portal =>
    injection here.symm.trans portal with same
    injection same with name
    exact .inl name
  | element portal _ stands id =>
    injection here.symm.trans portal with same
    injection same with name
    exact .inr ⟨_, _, stands, name ▸ id⟩

/-- The target of the portal at a path is there when the portal has its turn: it is the body or the id of an
element around which all portals have earlier turns. -/
def InTime (top : FixtureNode) (path : List Nat) (target : String) : Prop :=
  target = "body" ∨ ∃ place node, top.at? place = some node ∧ node.id? = some target ∧
    ∀ outer, top.Encloses outer place → top.EarlierTurn outer path

end FixtureNode

namespace Fixture

variable (f : Fixture)

/-- All tags are tag names, and there are only texts and elements outside the app. -/
structure Proper : Prop where
  named : ∀ path node, f.document.at? path = some node → node.HasTagName
  plain : ∀ d ∈ metAll bodyPath 0 f.markup, d.2.IsPlain

/-- Why rendering fails: a target that is not there in time, or something improper. -/
inductive Faulty : FixtureError → Prop
  | target {path : List Nat} {target : String} {children : List FixtureNode} :
    f.document.at? path = some (.portal target children) → ¬f.document.InTime path target →
    Faulty (.unknownPortalTarget target)
  | improper {e : FixtureError} : (∀ target, e ≠ .unknownPortalTarget target) → ¬f.Proper → Faulty e

/-- What holds while portals have their turns: they have them in order, those that had theirs found their
targets and are resolved, and what has been met could be drawn. -/
structure Timely (done queue log : List DeclaredNode) : Prop where
  ordered : (done ++ queue).Pairwise fun d e => f.document.EarlierTurn d.1 e.1
  inTime : ∀ path target children, (path, .portal target children) ∈ done → f.document.InTime path target
  resolved : ∀ portal ∈ done, f.document.Resolved portal.1
  named : ∀ d ∈ log, d.2.HasTagName

variable {f} {done queue log : List DeclaredNode} {document : ElementTree} {s : RenderState}
  {path : List Nat} {target : String} {children : List FixtureNode} {n : Nat}

/-- An element that is known by an id has been met. -/
theorem Laid.exists_element (h : f.Laid done queue log document s)
    (found : Fields.find? target s.ids = some n) : ∃ d ∈ log, d.2.id? = some target := by
  rw [h.records.counts.ids] at found
  obtain ⟨inside, same, -⟩ := List.findIdx?_eq_some_iff_getElem.mp found
  exact ⟨_, (List.mem_filter.mp (List.getElem_mem inside)).1, beq_iff_eq.mp same⟩

/-- **A portal that has its turn finds its target exactly when that is there in time.** -/
theorem Laid.exists_target_iff (h : f.Laid done ((path, .portal target children) :: queue) log document s)
    (timely : f.Timely done ((path, .portal target children) :: queue) log) :
    (∃ n, s.TargetIs target n) ↔ f.document.InTime path target := by
  constructor
  · rintro ⟨n, ⟨body, -⟩ | ⟨-, found⟩⟩
    · exact .inl body
    · obtain ⟨d, met, id⟩ := h.exists_element found
      refine .inr ⟨d.1, d.2, h.turn.at?_of_mem met, id, fun outer encloses => ?_⟩
      obtain ⟨portal, turn, rfl⟩ := h.turn.mem_done_of_encloses met encloses
      exact (List.pairwise_append.mp timely.ordered).2.2 _ turn _ List.mem_cons_self
  · intro inTime
    by_cases body : target = "body"
    · exact ⟨2, .inl ⟨body, rfl⟩⟩
    obtain ⟨place, node, here, id, earlier⟩ := inTime.resolve_left body
    have met : (place, node) ∈ log := h.turn.mem_drawn_of_done here fun outer encloses => by
      obtain ⟨portal, there, isPortal⟩ := encloses.2.2
      exact ⟨_, h.turn.mem_done_of_earlier timely.ordered there isPortal (earlier outer encloses), rfl⟩
    have isElement : (place, node) ∈ made log := by
      refine List.mem_filter.mpr ⟨met, ?_⟩
      cases node <;> first | rfl | cases id
    cases found : Fields.find? target s.ids with
    | some n => exact ⟨n, .inr ⟨body, found⟩⟩
    | none =>
      rw [h.records.counts.ids, List.findIdx?_eq_none_iff] at found
      exact absurd (found _ isElement) (by simp [id])

/-- A portal that finds its target when it has its turn is resolved. -/
theorem Laid.resolved (h : f.Laid done ((path, .portal target children) :: queue) log document s)
    (timely : f.Timely done ((path, .portal target children) :: queue) log)
    (found : s.TargetIs target n) : f.document.Resolved path := by
  have around : ∀ d ∈ log, ∀ outer, f.document.Encloses outer d.1 → f.document.Resolved outer := by
    intro d met outer encloses
    obtain ⟨portal, turn, rfl⟩ := h.turn.mem_done_of_encloses met encloses
    exact timely.resolved portal turn
  have met := (h.turn.mem_drawn (List.mem_append_right done List.mem_cons_self)).1
  have here := h.turn.at?_of_mem met
  rcases found with ⟨rfl, -⟩ | ⟨-, found⟩
  · exact .body here (around _ met)
  · obtain ⟨d, met', id⟩ := h.exists_element found
    exact .element here (around _ met) (h.turn.at?_of_mem met') id (around d met')

/-- **A portal has its turn in time.** -/
theorem Timely.next (timely : f.Timely done ((path, .portal target children) :: queue) log)
    (h : f.Laid done ((path, .portal target children) :: queue) log document s)
    (found : s.TargetIs target n) (named : ∀ d ∈ metAll path 0 children, d.2.HasTagName) :
    f.Timely (done ++ [(path, .portal target children)])
      (queue ++ (metAll path 0 children).filter (·.2.isPortal)) (log ++ metAll path 0 children) where
  ordered := h.turn.ordered_next timely.ordered
  inTime path' target' children' mem := by
    rcases List.mem_append.mp mem with old | new
    · exact timely.inTime path' target' children' old
    · cases List.mem_singleton.mp new
      exact (h.exists_target_iff timely).mp ⟨n, found⟩
  resolved portal mem := by
    rcases List.mem_append.mp mem with old | new
    · exact timely.resolved portal old
    · rw [List.mem_singleton.mp new]
      exact h.resolved timely found
  named := List.forall_mem_append.mpr ⟨timely.named, named⟩

/-- **One turn.** It goes on with fewer turns to come, or something is faulty. -/
theorem Laid.verdict_next {waiting : PendingPortal} {rest : List PendingPortal}
    (laid : f.Laid done queue log document s) (timely : f.Timely done queue log)
    (pending : s.pending = waiting :: rest) :
    (∃ document' t, (∀ count, portals 2 (count + 1) document s = portals 2 count document' t) ∧
      turnsLeft t.pending < turnsLeft s.pending ∧
      ∃ done queue log, f.Laid done queue log document' t ∧ f.Timely done queue log) ∨
    ∃ e, (∀ count, portals 2 (count + 1) document s = .error e) ∧ f.Faulty e := by
  have awaits := laid.records.pending
  rw [pending] at awaits
  obtain ⟨portal, others, first, -, rfl⟩ := List.forall₂_cons_right_iff.mp awaits
  cases first with
  | @portal path target children owner _ _ =>
    have here := laid.turn.at?_of_mem
      (laid.turn.mem_drawn (List.mem_append_right done List.mem_cons_self)).1
    rcases targetOf_judges target { s with pending := rest } with ⟨n, found, ok⟩ | ⟨none, error⟩
    · rcases appNodes_judges children owner path 0 { s with pending := rest } with
        ⟨trees, t, ok', named⟩ | ⟨e, error, other, d, inside, unnamed⟩
      · have drawn := appNodes_drawn ok'
        have fewer : turnsLeft t.pending < turnsLeft s.pending := by
          rw [turnsLeft_drawn drawn, pending, turnsLeft]
          dsimp only
          omega
        refine .inl ⟨_, t, fun count => ?_, fewer, _, _, _, laid.next pending found drawn,
          timely.next laid found named⟩
        rw [portals_of_next pending, ok, ok_bind, ok', ok_bind]
      · refine .inr ⟨e, fun count => ?_, .improper other fun proper => unnamed ?_⟩
        · rw [portals_of_next pending, ok, ok_bind, error]
          rfl
        · exact proper.named d.1 d.2 (at?_of_mem_metAll here inside)
    · refine .inr ⟨_, fun count => ?_, .target here fun inTime => ?_⟩
      · rw [portals_of_next pending, error]
        rfl
      · obtain ⟨n, found⟩ := (laid.exists_target_iff timely).mpr inTime
        exact none n found

/-- **The run.** All portals have their turns in time, or something is faulty. -/
theorem Laid.verdict : ∀ {count : Nat} {done queue log : List DeclaredNode} {document : ElementTree}
    {s : RenderState}, f.Laid done queue log document s → f.Timely done queue log →
      turnsLeft s.pending ≤ count →
      (∃ result done log, portals 2 count document s = .ok result ∧
        f.document.Turn done [] log ∧ f.Timely done [] log) ∨
      ∃ e, portals 2 count document s = .error e ∧ f.Faulty e := by
  intro count
  induction count with
  | zero =>
    intro done queue log document s laid timely left
    have none := turnsLeft_eq_zero (Nat.le_zero.mp left)
    obtain rfl := laid.records.queue_eq_nil none
    exact .inl ⟨_, done, log, portals_of_none none, laid.turn, timely⟩
  | succ count ih =>
    intro done queue log document s laid timely left
    cases pending : s.pending with
    | nil =>
      obtain rfl := laid.records.queue_eq_nil pending
      exact .inl ⟨_, done, log, portals_of_none pending, laid.turn, timely⟩
    | cons waiting rest =>
      rcases laid.verdict_next timely pending with
        ⟨document', t, step, fewer, done, queue, log, laid, timely⟩ | ⟨e, error, faulty⟩
      · rw [step]
        exact ih laid timely (by omega)
      · exact .inr ⟨e, error count, faulty⟩

/-! ### The whole of rendering -/

theorem render_eq (f : Fixture) :
    f.render = (f.renderDocument ⟨0, [], [], 0, []⟩).map fun result => ⟨result.1, result.2.instances⟩ := by
  unfold render
  split
  · next drawn => rw [drawn]; rfl
  · next drawn => rw [drawn]; rfl

/-- What is met in the markup and in the app is declared there. -/
theorem at?_of_mem_parts {d : DeclaredNode}
    (mem : d ∈ metAll bodyPath 0 f.markup ∨ d ∈ metAll f.mountPath 0 f.app) :
    f.document.at? d.1 = some d.2 := by
  have top : f.document.at? [] = some f.document := rfl
  refine at?_of_mem_met top ?_
  rw [met_document]
  rcases mem with outside | inside
  · exact List.mem_append_left _ (List.mem_append_left _ (List.mem_append_right _ outside))
  · exact List.mem_append_right _ inside

/-- The frame of a page has tags, so only those of the markup and of the app matter. -/
theorem hasTagName_of_mem_met (outside : ∀ d ∈ metAll bodyPath 0 f.markup, d.2.HasTagName)
    (inside : ∀ d ∈ metAll f.mountPath 0 f.app, d.2.HasTagName) :
    ∀ d ∈ met [] f.document, d.2.HasTagName := by
  have html : f.document.HasTagName := show isTagName "html".toList = true by decide
  have first : head.HasTagName := show isTagName "head".toList = true by decide
  have second : f.body.HasTagName := show isTagName "body".toList = true by decide
  have mounted : f.mount.HasTagName := show isTagName "div".toList = true by decide
  rw [met_document]
  refine List.forall_mem_append.mpr ⟨List.forall_mem_append.mpr ⟨List.forall_mem_append.mpr
    ⟨?_, outside⟩, List.forall_mem_singleton.mpr mounted⟩, inside⟩
  simpa using ⟨html, first, second⟩

/-- When all portals have had their turns in time, the fixture is as it should be. -/
theorem Timely.all (timely : f.Timely done [] log) (turn : f.document.Turn done [] log) :
    (∀ path node, f.document.at? path = some node → node.HasTagName) ∧
      ∀ path target children, f.document.at? path = some (.portal target children) →
        f.document.InTime path target ∧ f.document.Resolved path := by
  refine ⟨fun path node here => timely.named _ (turn.mem_of_at? here), fun path target children here => ?_⟩
  have turned := turn.mem_done_of_at? here rfl
  exact ⟨timely.inTime path target children turned, timely.resolved _ turned⟩

/-- **Rendering succeeds, and all portals find their targets in time, or something is faulty.** -/
theorem render_verdict (f : Fixture) :
    ((∃ r, f.render = .ok r) ∧ f.Proper ∧ ∀ path target children,
      f.document.at? path = some (.portal target children) →
        f.document.InTime path target ∧ f.document.Resolved path) ∨
    ∃ e, f.render = .error e ∧ f.Faulty e := by
  rw [render_eq, renderDocument_eq]
  rcases markupNodes_judges f.markup bodyPath 0 ⟨3, [], [], 0, []⟩ with
    ⟨markup, s, ok, plain⟩ | ⟨e, error, other, d, met, bad⟩
  · rcases appNodes_judges f.app s.nextInstance f.mountPath 0 s.mounted with
      ⟨app, t, ok', named⟩ | ⟨e, error, other, d, met, bad⟩
    · obtain ⟨start, left⟩ := laid_start (markupNodes_drawn ok) (appNodes_drawn ok')
      have timely : f.Timely [] ((met [] f.document).filter (·.2.isPortal)) (met [] f.document) :=
        ⟨Turn.ordered_start _, nofun, nofun, hasTagName_of_mem_met (fun d mem => (plain d mem).2) named⟩
      rw [ok, ok_bind, ok', ok_bind]
      rcases start.verdict timely left with
        ⟨result, done, log, drawn, turn, timely⟩ | ⟨e, error, faulty⟩
      · obtain ⟨named, portals⟩ := timely.all turn
        rw [drawn]
        exact .inl ⟨⟨_, rfl⟩, ⟨named, fun d mem => (plain d mem).1⟩, portals⟩
      · rw [error]
        exact .inr ⟨e, rfl, faulty⟩
    · rw [ok, ok_bind, error]
      refine .inr ⟨e, rfl, .improper other fun proper => bad ?_⟩
      exact proper.named d.1 d.2 (at?_of_mem_parts (.inr met))
  · rw [error]
    refine .inr ⟨e, rfl, .improper other fun proper => bad ⟨proper.plain d met, ?_⟩⟩
    exact proper.named d.1 d.2 (at?_of_mem_parts (.inl met))

/-- **When a fixture renders**: it is proper, and all portals find their targets in time. -/
theorem render_ok_iff (f : Fixture) : (∃ r, f.render = .ok r) ↔ f.Proper ∧ ∀ path target children,
    f.document.at? path = some (.portal target children) → f.document.InTime path target := by
  constructor
  · rintro ⟨r, rendered⟩
    rcases f.render_verdict with ⟨-, proper, portals⟩ | ⟨e, error, -⟩
    · exact ⟨proper, fun path target children here => (portals path target children here).1⟩
    · rw [rendered] at error
      cases error
  · rintro ⟨proper, inTime⟩
    rcases f.render_verdict with ⟨rendered, -, -⟩ | ⟨e, -, faulty⟩
    · exact rendered
    · cases faulty with
      | target here late => exact absurd (inTime _ _ _ here) late
      | improper _ improper => exact absurd proper improper

/-- Every portal of a rendered fixture is resolved. -/
theorem resolved_of_render {r : Rendering} (h : f.render = .ok r)
    (here : f.document.at? path = some (.portal target children)) : f.document.Resolved path := by
  rcases f.render_verdict with ⟨-, -, portals⟩ | ⟨e, error, -⟩
  · exact (portals path target children here).2
  · rw [h] at error
    cases error

/-- A target is reported as unknown when it is not there in time. -/
theorem exists_of_unknownPortalTarget (h : f.render = .error (.unknownPortalTarget target)) :
    ∃ path children, f.document.at? path = some (.portal target children) ∧
      ¬f.document.InTime path target := by
  rcases f.render_verdict with ⟨⟨r, rendered⟩, -, -⟩ | ⟨e, error, faulty⟩
  · rw [h] at rendered
    cases rendered
  · obtain rfl := Except.error.inj (h.symm.trans error)
    cases faulty with
    | target here late => exact ⟨_, _, here, late⟩
    | improper other _ => exact absurd rfl (other target)

end Fixture

end PageQuery

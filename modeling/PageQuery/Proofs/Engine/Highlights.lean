/-
# Markers of highlights

A highlight puts one marker around each leaf of its input that has a box, all of one name and in the
order of the leaves. Nothing else reaches for the overlay: queries do not, the other functions at hand do
not, and a highlight in a context leads nowhere, as its value reads as no context. So a query that gives
results leaves the markers as they were but for those that expired, and a highlight chained onto the
query adds its own to them.

Where a run fails, nothing is said about its markers: a highlight before the failure stays done.

Key definitions: `Page.boxOf?`, `Setting.marker`, `Run.SparesOverlay`, `Run.KeepsOverlay`, `Run.Marks`.
Key theorems: `Functions.highlight_apply`, `Engine.normalizeBy_keeps`, `Engine.fetchWithin_overlay`,
`Engine.fetchWithin_highlight`.
-/
import PageQuery.Proofs.Engine.Dimensions

namespace PageQuery

namespace Run

variable {α β : Type}

theorem bind_ok_apply {m : Run α} {f : α → Run β} {a : α} {p q : Progress} (run : m p = (.ok a, q)) :
    (m >>= f) p = f a q := by
  rw [bind_apply, run]

/-! ### Runs that spare the overlay -/

/-- Whatever it comes to, the run leaves the overlay as it was. -/
def SparesOverlay (m : Run α) : Prop := ∀ p, (m p).2.overlay = p.overlay

theorem SparesOverlay.pure (a : α) : SparesOverlay (pure a : Run α) := fun _ => rfl

theorem SparesOverlay.fail (e : QueryError) : SparesOverlay (fail e : Run α) := fun _ => rfl

theorem SparesOverlay.bind {m : Run α} {f : α → Run β} (hm : SparesOverlay m)
    (hf : ∀ a, SparesOverlay (f a)) : SparesOverlay (m >>= f) := by
  intro p
  have spared := hm p
  rw [bind_apply]
  match m p, spared with
  | (.ok a, q), spared => exact (hf a q).trans spared
  | (.error _, _), spared => exact spared

theorem SparesOverlay.ofIdentified (s : StateM Identities α) : SparesOverlay (ofIdentified s) :=
  fun _ => rfl

theorem SparesOverlay.ofSearch (s : Search α) : SparesOverlay (ofSearch s) := fun _ => rfl

theorem SparesOverlay.ofDocument (r : Except SearchError α) : SparesOverlay (ofDocument r) := by
  cases r with
  | ok a => exact .pure a
  | error e => exact .fail _

theorem SparesOverlay.parse (text : String) : SparesOverlay (parse text) := by
  intro p
  unfold Run.parse
  match p.selectors.getOrParse text with
  | (.ok _, _) => rfl
  | (.error _, _) => rfl

/-- If the run gives something, it leaves the overlay as it was. -/
def KeepsOverlay (m : Run α) : Prop := ∀ p a, (m p).1 = .ok a → (m p).2.overlay = p.overlay

theorem SparesOverlay.keeps {m : Run α} (h : SparesOverlay m) : KeepsOverlay m := fun p _ _ => h p

theorem KeepsOverlay.pure (a : α) : KeepsOverlay (pure a : Run α) := (SparesOverlay.pure a).keeps

theorem KeepsOverlay.fail (e : QueryError) : KeepsOverlay (fail e : Run α) := (SparesOverlay.fail e).keeps

theorem KeepsOverlay.bind {m : Run α} {f : α → Run β} (hm : KeepsOverlay m)
    (hf : ∀ a, KeepsOverlay (f a)) : KeepsOverlay (m >>= f) := by
  intro p b e
  have kept := hm p
  rw [bind_apply] at e ⊢
  generalize m p = left at *
  match left, e with
  | (.ok a, q), e => exact (hf a q b e).trans (kept a rfl)

/-- A run that gives nothing has nothing to keep. -/
theorem KeepsOverlay.of_yields {m : Run α} (h : Yields m fun _ => False) : KeepsOverlay m :=
  fun p a e => (h p a e).elim

/-! ### Runs that add markers -/

/-- From any progress the run gives something; to the overlay it only adds the markers. -/
def Marks (m : Run α) (markers : List Marker) : Prop := ∀ p : Progress, ∃ a q, m p = (.ok a, q) ∧
  q.overlay = { p.overlay with markers := p.overlay.markers ++ markers }

theorem Marks.pure (a : α) : Marks (pure a : Run α) [] := fun p => by
  refine ⟨a, p, rfl, ?_⟩
  rw [List.append_nil]

theorem Marks.bind {m : Run α} {f : α → Run β} {first later : List Marker} (hm : Marks m first)
    (hf : ∀ a, Marks (f a) later) : Marks (m >>= f) (first ++ later) := by
  intro p
  obtain ⟨a, q, run, added⟩ := hm p
  obtain ⟨b, q', run', added'⟩ := hf a q
  refine ⟨b, q', (bind_ok_apply run).trans run', ?_⟩
  rw [added', added, List.append_assoc]

end Run

open Run

/-! ### The functions at hand -/

section leaves

variable {f : ResultSet → Run Json}

mutual

theorem ResultSet.mapLeaves_spares (h : ∀ leaf, SparesOverlay (f leaf)) :
    ∀ r : ResultSet, SparesOverlay (r.mapLeaves f)
  | .null => h .null
  | .nodes ns => h (.nodes ns)
  | .components is => h (.components is)
  | .array items => (mapLeavesOfAll_spares h items).bind fun _ => .pure _

theorem ResultSet.mapLeavesOfAll_spares (h : ∀ leaf, SparesOverlay (f leaf)) :
    ∀ items : List ResultSet, SparesOverlay (mapLeavesOfAll f items)
  | [] => .pure []
  | r :: rest => (mapLeaves_spares h r).bind fun _ => (mapLeavesOfAll_spares h rest).bind fun _ => .pure _

end

variable {mark? : ResultSet → Option Marker}

theorem ResultSet.filterMap_leaves {leaf : ResultSet} (single : leaf.leaves = [leaf]) :
    leaf.leaves.filterMap mark? = (mark? leaf).toList := by
  rw [single]
  cases e : mark? leaf <;> simp [e]

mutual

/-- What is marked on each leaf is marked on the whole from left to right. -/
theorem ResultSet.mapLeaves_marks (h : ∀ leaf, Marks (f leaf) (mark? leaf).toList) :
    ∀ r : ResultSet, Marks (r.mapLeaves f) (r.leaves.filterMap mark?)
  | .null => by rw [filterMap_leaves rfl]; exact h .null
  | .nodes ns => by rw [filterMap_leaves rfl]; exact h (.nodes ns)
  | .components is => by rw [filterMap_leaves rfl]; exact h (.components is)
  | .array items => by
    have all := (mapLeavesOfAll_marks h items).bind fun values => Marks.pure (Json.array values)
    rwa [List.append_nil] at all

theorem ResultSet.mapLeavesOfAll_marks (h : ∀ leaf, Marks (f leaf) (mark? leaf).toList) :
    ∀ items : List ResultSet, Marks (mapLeavesOfAll f items) ((leavesOfAll items).filterMap mark?)
  | [] => Marks.pure []
  | r :: rest => by
    have all := (mapLeaves_marks h r).bind fun value =>
      (mapLeavesOfAll_marks h rest).bind fun values => Marks.pure (value :: values)
    rwa [List.append_nil, ← List.filterMap_append] at all

end

end leaves

namespace Page

/-- The nodes of a leaf: those found, or the elements of the components found. -/
def nodesOf? (page : Page) : ResultSet → Option (List NodeId)
  | .nodes ns => some ns
  | .components is => some (NodeId.ascending (is.flatMap page.elements))
  | _ => none

/-- The box around the nodes of a leaf, if it has any. -/
def boxOf? (page : Page) (leaf : ResultSet) : Option Rect :=
  (page.nodesOf? leaf).bind fun ns => Rect.unionAll (ns.map page.rect)

/-- Whether a leaf projects any node. -/
def projects (page : Page) (leaf : ResultSet) : Bool := (page.nodesOf? leaf).any (!·.isEmpty)

/-- A leaf has a box if it projects a node. -/
@[simp] theorem isSome_boxOf? (page : Page) (leaf : ResultSet) :
    (page.boxOf? leaf).isSome = page.projects leaf := by
  unfold boxOf? projects
  match page.nodesOf? leaf with
  | none => rfl
  | some [] => rfl
  | some (_ :: _) => rfl

end Page

/-- The marker of a highlight around a box. -/
def Setting.marker (setting : Setting) (uid : String) (timeout? : Option Nat) (rect : Rect) : Marker where
  uid := uid
  rect := rect
  fill := setting.config.highlight.fill
  border := setting.config.highlight.border
  zIndex := setting.config.highlight.zIndex
  expires? := Functions.deadline? setting.now timeout?

/-- A marker is active when it is made, since a timeout of zero is none. -/
theorem Setting.isActive_marker (setting : Setting) (uid : String) (rect : Rect) :
    ∀ timeout? : Option Nat, (setting.marker uid timeout? rect).isActive setting.now = true
  | none => rfl
  | some 0 => rfl
  | some (ms + 1) => decide_eq_true (show setting.now < setting.now + (ms + 1) by omega)

/-- Whatever the function is given, it spares the overlay. -/
def TerminalFunction.SparesOverlay (f : TerminalFunction) : Prop :=
  ∀ setting input args, Run.SparesOverlay (f setting input args)

namespace Functions

variable {setting : Setting}

theorem nodesOf?_spares : ∀ leaf : ResultSet, SparesOverlay (nodesOf? setting leaf)
  | .null => .pure none
  | .nodes _ => .pure _
  | .components components =>
    (SparesOverlay.ofIdentified (setting.page.elementsOfAll components)).bind fun _ => .pure _
  | .array _ => .pure none

theorem text_spares : text.SparesOverlay := fun _ input _ =>
  ResultSet.mapLeaves_spares (fun leaf => (nodesOf?_spares leaf).bind fun nodes? => by
    cases nodes? with
    | none => exact .pure _
    | some nodes => exact .pure _) input

theorem prop_spares : prop.SparesOverlay := by
  intro setting input args
  unfold prop
  split
  · exact .fail _
  · refine ResultSet.mapLeaves_spares (fun leaf => ?_) input
    split
    · exact .fail _
    · exact .pure _
    · exact .pure _

theorem firstControl_spares (component : InstanceId) : ∀ controls : List String,
    SparesOverlay (firstControl setting component controls)
  | [] => .pure none
  | control :: rest => (SparesOverlay.ofSearch (setting.page.searchWithin [component] control)).bind
      fun found => by
    cases found with
    | nil => exact firstControl_spares component rest
    | cons n more => exact .pure _

theorem interactionTarget_spares (component : InstanceId) :
    SparesOverlay (interactionTarget setting component) :=
  (firstControl_spares component _).bind fun control => by
    cases control with
    | some n => exact .pure _
    | none => exact (SparesOverlay.ofIdentified (setting.page.elementsOf component)).bind fun _ => .pure _

theorem interactionElement_spares : interactionElement.SparesOverlay := by
  intro setting input args
  unfold interactionElement
  split
  · exact .pure _
  · exact .fail _
  · exact .pure _
  · exact .pure _
  · exact .fail _
  · exact .pure _
  · exact (interactionTarget_spares _).bind fun _ => .pure _
  · exact .fail _

/-- Of the functions at hand only `highlight` reaches for the overlay. -/
theorem highlight_or_spares_of_builtin {name : String} {f : TerminalFunction}
    (h : builtin.find? name = some f) : (name = "highlight" ∧ f = highlight) ∨ f.SparesOverlay := by
  have listed := Fields.mem_of_find? h
  simp only [builtin, List.mem_cons, Prod.mk.injEq, List.not_mem_nil, or_false] at listed
  rcases listed with ⟨-, rfl⟩ | ⟨-, rfl⟩ | ⟨rfl, rfl⟩ | ⟨-, rfl⟩ | ⟨-, rfl⟩ | ⟨-, rfl⟩
  · exact .inr fun _ _ _ => .pure _
  · exact .inr fun _ _ _ => .pure _
  · exact .inl ⟨rfl, rfl⟩
  · exact .inr interactionElement_spares
  · exact .inr prop_spares
  · exact .inr text_spares

theorem highlight_yields (input : ResultSet) (args : List Json) :
    Yields (highlight setting input args) fun value => value = .bool true := by
  unfold highlight
  split
  · exact Yields.fail _
  · exact Yields.of_rest fun _ => Yields.of_rest fun _ => Yields.pure rfl

/-- Marks the box around the nodes of a leaf, if it has any. -/
def markLeaf (setting : Setting) (uid : String) (timeout? : Option Nat) (leaf : ResultSet) : Run Json := do
  match ← nodesOf? setting leaf with
  | none => return .null
  | some nodes =>
    match Rect.unionAll (nodes.map setting.page.rect) with
    | none => return .null
    | some rect =>
      Run.onOverlay fun overlay => ((), overlay.add (setting.marker uid timeout? rect))
      return .null

/-- With a time, a highlight takes one name and marks leaf by leaf. -/
theorem highlight_eq {args : List Json} {timeout? : Option Nat}
    (timed : timeoutOf setting.config args = .ok timeout?) (input : ResultSet) :
    highlight setting input args = (do
      let uid ← Run.onOverlay Overlay.nextUid
      let _ ← input.mapLeaves (markLeaf setting uid timeout?)
      return .bool true) := by
  unfold highlight
  rw [timed]
  rfl

theorem nodesOf?_apply (p : Progress) : ∀ leaf : ResultSet, ∃ identities,
    nodesOf? setting leaf p = (.ok (setting.page.nodesOf? leaf), { p with identities })
  | .null => ⟨_, rfl⟩
  | .nodes _ => ⟨_, rfl⟩
  | .components is => by
    have elements := (setting.page.elementsOfAll_answers is _ p.identities.grows_empty).2
    refine ⟨(setting.page.elementsOfAll is p.identities).2, ?_⟩
    rw [Page.nodesOf?, ← elements]
    rfl
  | .array _ => ⟨_, rfl⟩

theorem markLeaf_marks (uid : String) (timeout? : Option Nat) (leaf : ResultSet) :
    Marks (markLeaf setting uid timeout? leaf)
      ((setting.page.boxOf? leaf).map (setting.marker uid timeout?)).toList := by
  intro p
  obtain ⟨identities, nodes⟩ := @nodesOf?_apply setting p leaf
  unfold markLeaf Page.boxOf?
  rw [bind_apply, nodes]
  cases setting.page.nodesOf? leaf with
  | none => exact Marks.pure Json.null _
  | some ns =>
    dsimp only [Option.bind_some]
    cases Rect.unionAll (ns.map setting.page.rect) with
    | none => exact Marks.pure Json.null _
    | some rect => exact ⟨_, _, rfl, rfl⟩

/-- **A highlight takes one name and marks the box of each leaf that has one.** -/
theorem highlight_apply {args : List Json} {timeout? : Option Nat}
    (timed : timeoutOf setting.config args = .ok timeout?) (input : ResultSet) (p : Progress) :
    ∃ q, highlight setting input args p = (.ok (.bool true), q) ∧
      q.overlay = ⟨p.overlay.markers ++
        (input.leaves.filterMap setting.page.boxOf?).map (setting.marker p.overlay.nextUid.1 timeout?),
        p.overlay.named + 1⟩ := by
  let uid := p.overlay.nextUid.1
  have leaves : Marks (input.mapLeaves (markLeaf setting uid timeout?)) _ :=
    ResultSet.mapLeaves_marks (markLeaf_marks uid timeout?) input
  obtain ⟨v, q, run, added⟩ := leaves { p with overlay := p.overlay.nextUid.2 }
  refine ⟨q, ?_, ?_⟩
  · rw [highlight_eq timed, bind_apply]
    exact bind_ok_apply run
  · rw [added, List.map_filterMap]
    rfl

end Functions

namespace Engine

variable {setting : Setting} {functions : Functions} {query : Query} {selector : Selector}

/-! ### Queries spare the overlay -/

theorem runSegment_spares : ∀ (segment : Segment) (reached : Reached),
    SparesOverlay (runSegment setting segment reached)
  | .structural _, .root => (SparesOverlay.ofDocument _).bind fun _ => .pure _
  | .structural _, .nodes _ =>
    ((SparesOverlay.ofDocument _).bind fun _ => .pure _).bind fun _ => .pure _
  | .structural _, .components _ => (SparesOverlay.ofSearch _).bind fun _ => .pure _
  | .component _, .root => (SparesOverlay.ofSearch _).bind fun _ => .pure _
  | .component _, .nodes _ => (SparesOverlay.ofSearch _).bind fun _ => .pure _
  | .component _, .components _ => (SparesOverlay.ofSearch _).bind fun _ => .pure _

theorem runSegments_spares : ∀ (segments : List Segment) (reached : Reached),
    SparesOverlay (runSegments setting segments reached)
  | [], _ => .pure _
  | segment :: rest, reached => (runSegment_spares segment reached).bind fun next =>
    runSegments_spares rest next

theorem runFrom_spares (start : Reached) : SparesOverlay (runFrom setting query selector start) :=
  (runSegments_spares selector.segments start).bind fun _ => .pure _

mutual

theorem runQuery_spares : ∀ anchor : Anchor, SparesOverlay (runQuery setting query selector anchor)
  | .null => .pure _
  | .root => runFrom_spares _
  | .nodes _ => runFrom_spares _
  | .components _ => runFrom_spares _
  | .array items => (runQueryEach_spares items).bind fun _ => .pure _

theorem runQueryEach_spares : ∀ items : List Anchor,
    SparesOverlay (runQueryEach setting query selector items)
  | [] => .pure []
  | a :: rest => (runQuery_spares a).bind fun _ => (runQueryEach_spares rest).bind fun _ => .pure _

end

theorem executeQuery_spares (allowComponents : Bool) (anchor : Anchor) :
    SparesOverlay (executeQuery setting allowComponents query anchor) := by
  by_cases null : anchor = .null
  · exact null ▸ .pure _
  · rw [executeQuery_of_ne_null allowComponents query null]
    refine (SparesOverlay.parse query.selector).bind fun selector => ?_
    unfold runParsed
    split
    · exact .fail _
    · exact runQuery_spares anchor

theorem perform_query_spares (allowComponents : Bool) (anchor : Anchor) :
    SparesOverlay (perform setting functions allowComponents (.query query) anchor) :=
  (executeQuery_spares allowComponents anchor).bind fun _ => .pure _

/-! ### Contexts keep the overlay -/

/-- A call keeps the overlay unless it is that of a highlight, whose value is known. -/
theorem callFunction_keeps (call : FunctionCall) (anchor : Anchor) :
    KeepsOverlay (callFunction setting .builtin call anchor) ∨
      Yields (callFunction setting .builtin call anchor) fun value => value = .bool true := by
  unfold callFunction
  cases named : Functions.builtin.find? call.name with
  | none => exact .inl (.fail _)
  | some f =>
    rcases Functions.highlight_or_spares_of_builtin named with ⟨-, rfl⟩ | spares
    · exact .inr (Functions.highlight_yields _ call.args)
    · exact .inl (spares setting _ call.args).keeps

theorem anchorOf_keeps {again : Json → Run Anchor} (keeps : ∀ value, KeepsOverlay (again value)) :
    ∀ outcome : Outcome, KeepsOverlay (anchorOf again outcome)
  | .results _ => .pure _
  | .value value => keeps value

variable {again : Json → Run Anchor}

/-- A highlight in a context leads nowhere. -/
theorem perform_anchorOf_keeps (keeps : ∀ value, KeepsOverlay (again value))
    (refuses : Yields (again (.bool true)) fun _ => False) (anchor : Anchor) : ∀ operation : Operation,
    KeepsOverlay (perform setting .builtin true operation anchor >>= anchorOf again)
  | .query _ => (perform_query_spares true anchor).keeps.bind (anchorOf_keeps keeps)
  | .call call => by
    rcases callFunction_keeps call anchor with kept | marks
    · exact (kept.bind fun value => .pure (Outcome.value value)).bind (anchorOf_keeps keeps)
    -- markers were added, but the value reads as no context, so the run gives nothing
    · have value : Yields (perform setting .builtin true (.call call) anchor) fun o =>
          o = .value (.bool true) := marks.bind fun _ e => Yields.pure (congrArg Outcome.value e)
      exact .of_yields (value.bind fun _ e => e ▸ refuses)

mutual

theorem normalizeBy_keeps (keeps : ∀ value, KeepsOverlay (again value))
    (refuses : Yields (again (.bool true)) fun _ => False) : ∀ context : Context,
    KeepsOverlay (normalizeBy setting .builtin again context)
  | .null => .pure _
  | .root true => .pure _
  | .root false => .fail _
  | .node _ => .pure _
  | .nodes _ => .pure _
  | .components _ => .pure _
  | .array items => (normalizeEachBy_keeps keeps refuses items).bind fun _ => .pure _
  | .fetcher context operation => (normalizeBy_keeps keeps refuses context).bind fun anchor =>
    perform_anchorOf_keeps keeps refuses anchor operation

theorem normalizeEachBy_keeps (keeps : ∀ value, KeepsOverlay (again value))
    (refuses : Yields (again (.bool true)) fun _ => False) : ∀ items : List Context,
    KeepsOverlay (normalizeEachBy setting .builtin again items)
  | [] => .pure []
  | c :: rest => (normalizeBy_keeps keeps refuses c).bind fun _ =>
    (normalizeEachBy_keeps keeps refuses rest).bind fun _ => .pure _

end

/-- A truth value is no context. -/
theorem reread_true : ∀ limit : Nat,
    Yields (reread setting functions limit (.bool true)) fun _ => False
  | 0 => fun _ _ e => (nomatch e)
  | _ + 1 => Yields.fail _

theorem reread_keeps : ∀ (limit : Nat) (value : Json), KeepsOverlay (reread setting .builtin limit value)
  | 0, _ => fun _ _ _ => rfl
  | limit + 1, value => by
    unfold reread
    cases Context.ofJson? value with
    | none => exact .fail _
    | some context => exact normalizeBy_keeps (reread_keeps limit) (reread_true limit) context

/-- **A query leaves the overlay as it was.** Whatever its context holds, if only the query gives results. -/
theorem resolve_query_keeps (limit : Nat) (context : Context) :
    KeepsOverlay (resolve setting .builtin limit ⟨context, .query query⟩) :=
  (normalizeBy_keeps (reread_keeps limit) (reread_true limit) context).bind
    fun anchor => (perform_query_spares _ anchor).keeps

/-- A query that gives results drops the markers that expired and does no more to the overlay. -/
theorem fetchWithin_overlay {engine : Engine} (builtin : engine.functions = .builtin) {limit now : Nat}
    {context : Context} {o : Outcome}
    (found : (engine.fetchWithin limit now ⟨context, .query query⟩).1 = .ok o) :
    (engine.fetchWithin limit now ⟨context, .query query⟩).2.overlay = engine.overlay.prune now := by
  have keeps := @resolve_query_keeps (engine.settingAt now) query limit context (engine.start now) o
  rw [← builtin] at keeps
  exact keeps found

/-! ### A highlight chained onto a query -/

/-- An operation chained onto a fetcher runs where the results are anchored, on what the fetcher left. -/
theorem resolve_chained_apply (allows : setting.config.allowComponentResults = true) {limit : Nat}
    {f : Fetcher} {r : ResultSet} {p q : Progress}
    (found : resolve setting functions limit f p = (.ok (.results r), q)) (operation : Operation) :
    resolve setting functions limit ⟨f.toContext, operation⟩ p =
      perform setting functions true operation (.ofResults r) q := by
  unfold resolve at found
  -- inner queries may always end in components, so the fetcher runs in a context as it does by itself
  rw [allows, bind_apply] at found
  have anchored : normalizeBy setting functions (reread setting functions limit) f.toContext p =
      (.ok (.ofResults r), q) := by
    unfold Fetcher.toContext normalizeBy
    rw [bind_apply]
    generalize normalizeBy setting functions (reread setting functions limit) f.context p = left at *
    obtain ⟨anchored, q'⟩ := left
    cases anchored with
    | error x => cases found
    | ok anchor => exact bind_ok_apply found
  unfold resolve
  rw [allows]
  exact bind_ok_apply anchored

/-- A call of `highlight` by its name that has its time. -/
theorem perform_highlight (named : functions.find? "highlight" = some Functions.highlight)
    (allowComponents : Bool) {args : List Json} {timeout? : Option Nat}
    (timed : Functions.timeoutOf setting.config args = .ok timeout?) (anchor : Anchor) (p : Progress) :
    let input := anchor.toInput setting.page.root
    ∃ q, perform setting functions allowComponents (.call ⟨"highlight", args⟩) anchor p =
        (.ok (.value (.bool true)), q) ∧
      q.overlay = ⟨p.overlay.markers ++
        (input.leaves.filterMap setting.page.boxOf?).map (setting.marker p.overlay.nextUid.1 timeout?),
        p.overlay.named + 1⟩ := by
  intro input
  obtain ⟨q, run, added⟩ := Functions.highlight_apply timed input p
  refine ⟨q, ?_, added⟩
  unfold perform callFunction
  dsimp only
  rw [named]
  exact bind_ok_apply run

/-- **A highlight on a query marks the box of each leaf that the query gives**, on top of what the query
leaves, and all its markers are active. -/
theorem fetchWithin_highlight {engine : Engine} (allows : engine.config.allowComponentResults = true)
    (named : engine.functions.find? "highlight" = some Functions.highlight) {limit now : Nat} {f : Fetcher}
    {r : ResultSet} (found : (engine.fetchWithin limit now f).1 = .ok (.results r)) {args : List Json}
    {timeout? : Option Nat} (timed : Functions.timeoutOf engine.config args = .ok timeout?) :
    let before := (engine.fetchWithin limit now f).2.overlay
    let chained := engine.fetchWithin limit now ⟨f.toContext, .call ⟨"highlight", args⟩⟩
    let boxes := r.leaves.filterMap engine.page.boxOf?
    chained.1 = .ok (.value (.bool true)) ∧
      chained.2.overlay.markers = before.markers ++
        boxes.map ((engine.settingAt now).marker before.nextUid.1 timeout?) ∧
      chained.2.overlay.count now = before.count now + boxes.length := by
  intro before chained boxes
  obtain ⟨q, ran, left⟩ : ∃ q, resolve (engine.settingAt now) engine.functions limit f (engine.start now) =
      (.ok (.results r), q) ∧ before = q.overlay := ⟨_, Prod.ext found rfl, rfl⟩
  obtain ⟨q', marked, added⟩ := @perform_highlight (engine.settingAt now) engine.functions named true args
    timeout? timed (.ofResults r) q
  rw [toInput_ofResults] at added
  have called : resolve (engine.settingAt now) engine.functions limit
      ⟨f.toContext, .call ⟨"highlight", args⟩⟩ (engine.start now) = (.ok (.value (.bool true)), q') :=
    (resolve_chained_apply allows ran _).trans marked
  have overlay : chained.2.overlay = q'.overlay := congrArg (fun run => run.2.overlay) called
  have markers : chained.2.overlay.markers = before.markers ++
      boxes.map ((engine.settingAt now).marker before.nextUid.1 timeout?) := by
    rw [overlay, added, left]
    rfl
  refine ⟨congrArg Prod.fst called, markers, ?_⟩
  have active : ∀ m ∈ boxes.map ((engine.settingAt now).marker before.nextUid.1 timeout?),
      m.isActive now = true := by
    intro m mem
    obtain ⟨rect, -, rfl⟩ := List.mem_map.mp mem
    exact (engine.settingAt now).isActive_marker _ rect timeout?
  unfold Overlay.count Overlay.active
  rw [markers, List.filter_append, List.length_append, List.filter_eq_self.mpr active, List.length_map]

end Engine

end PageQuery

/-
# What rendering makes of the nodes that it meets

Rendering is followed along the nodes that have been met so far, the log. It tells what there is by now:
the elements, whose serials count those among the nodes, the instances and the portals that wait
(`Records`), and what stands in each element that has been drawn (`Fits`). A node that is met adds to
all of this in its own way, one case for each form of node (`Adds`).

Key definitions: `Fixture.Records`, `Fixture.Fits`, `Fixture.Adds`, `ElementTree.Everywhere`.
Key theorems: `ElementTree.Everywhere.appendTo`, `MarkupDrawn.adds`, `Drawn.adds`,
`Fixture.rootDocument_adds`.
-/
import Mathlib.Data.List.Forall2
import PageQuery.Proofs.Fixture.Drawing
import PageQuery.Proofs.Fixture.Paths

namespace PageQuery

open ElementTree FixtureNode Render RenderState

/-! ### All elements of a tree -/

namespace ElementTree

mutual

/-- Something holds of every element of a tree and its content. -/
def Everywhere (P : ElementHead → List ElementTree → Prop) : ElementTree → Prop
  | .text _ => True
  | .element head content => P head content ∧ EverywhereAll P content

def EverywhereAll (P : ElementHead → List ElementTree → Prop) : List ElementTree → Prop
  | [] => True
  | t :: rest => Everywhere P t ∧ EverywhereAll P rest

end

section everywhere

variable {P Q : ElementHead → List ElementTree → Prop} {serial : Nat} {more : List ElementTree}

@[simp] theorem everywhereAll_append {first second : List ElementTree} :
    EverywhereAll P (first ++ second) ↔ EverywhereAll P first ∧ EverywhereAll P second := by
  induction first with
  | nil => simp [EverywhereAll]
  | cons t rest ih => rw [List.cons_append, EverywhereAll, EverywhereAll, ih, and_assoc]

theorem everywhereAll_leadingText {text? : Option String} : EverywhereAll P (leadingText text?) := by
  cases text? <;> simp [leadingText, EverywhereAll, Everywhere]

mutual

theorem Everywhere.imp (step : ∀ head content, P head content → Q head content) :
    ∀ {t : ElementTree}, Everywhere P t → Everywhere Q t
  | .text _, _ => trivial
  | .element head content, h => ⟨step head content h.1, EverywhereAll.imp step h.2⟩

theorem EverywhereAll.imp (step : ∀ head content, P head content → Q head content) :
    ∀ {ts : List ElementTree}, EverywhereAll P ts → EverywhereAll Q ts
  | [], _ => trivial
  | _ :: _, h => ⟨Everywhere.imp step h.1, EverywhereAll.imp step h.2⟩

end

mutual

/-- What is added to some elements of a tree changes the content of these, and what is in them. -/
theorem Everywhere.appendTo (added : EverywhereAll Q more)
    (step : ∀ head content, P head content → Q head
      (if head.serial = serial then appendToAll serial more content ++ more
        else appendToAll serial more content)) :
    ∀ {t : ElementTree}, Everywhere P t → Everywhere Q (appendTo serial more t)
  | .text _, _ => trivial
  | .element head content, h => by
    have inner := EverywhereAll.appendTo added step h.2
    rw [ElementTree.appendTo]
    refine ⟨step head content h.1, ?_⟩
    split
    · exact everywhereAll_append.mpr ⟨inner, added⟩
    · exact inner

theorem EverywhereAll.appendTo (added : EverywhereAll Q more)
    (step : ∀ head content, P head content → Q head
      (if head.serial = serial then appendToAll serial more content ++ more
        else appendToAll serial more content)) :
    ∀ {ts : List ElementTree}, EverywhereAll P ts → EverywhereAll Q (appendToAll serial more ts)
  | [], _ => trivial
  | _ :: _, h => ⟨Everywhere.appendTo added step h.1, EverywhereAll.appendTo added step h.2⟩

end

mutual

/-- What holds of every element holds of those that are numbered. -/
theorem Everywhere.placed {e : PlacedElement} :
    ∀ {t : ElementTree} {parent? : Option Nat} {number : Nat}, Everywhere P t →
      e ∈ ElementTree.placed parent? number t → P e.head e.content
  | .element head content, parent?, number, h, mem => by
    rw [ElementTree.placed] at mem
    rcases List.mem_cons.mp mem with rfl | inner
    · exact h.1
    · exact EverywhereAll.placed h.2 inner

theorem EverywhereAll.placed {e : PlacedElement} :
    ∀ {ts : List ElementTree} {parent? : Option Nat} {number : Nat}, EverywhereAll P ts →
      e ∈ placedAll parent? number ts → P e.head e.content
  | t :: rest, parent?, number, h, mem => by
    rw [placedAll] at mem
    rcases List.mem_append.mp mem with first | later
    · exact Everywhere.placed h.1 first
    · exact EverywhereAll.placed h.2 later

end

end everywhere

end ElementTree

/-! ### Instances and elements for nodes -/

/-- An element drawn for a node. -/
def ElementHead.Renders (head : ElementHead) : FixtureNode → Prop
  | .element tag attributes _ rect? _ =>
    head.tag = lowerTag tag ∧ head.attributes = attributes ∧ head.rect? = rect?
  | _ => False

/-- An instance made for a node. -/
def RenderedInstance.Represents (x : RenderedInstance) : FixtureNode → Prop
  | .text _ => False
  | .component name kind displayName? props _ => x.kind = kind.toInstanceKind ∧
    x.name? = componentName? name kind displayName? ∧ x.props = propsOrNone props
  | .portal _ _ => x.kind = .portal ∧ x.name? = none ∧ x.props = .null
  | .element tag _ _ _ _ => x.kind = .host ∧ x.name? = some tag ∧ x.props = .null

namespace Fixture

variable (f : Fixture)

/-- The node at the path is the one that the instance is made for. -/
def Names (log : List DeclaredNode) (path : List Nat) (i : InstanceId) : Prop :=
  ((f.graph log)[i.index]?).map (·.1) = some path

/-- A tree that shows what it should. -/
inductive DrawnAs (log : List DeclaredNode) : ContentItem (List Nat) → ElementTree → Prop
  | text {x : String} : DrawnAs log (.text x) (.text x)
  | element {path : List Nat} {head : ElementHead} {content : List ElementTree} :
    ((made log)[head.serial]?).map (·.1) = some path → DrawnAs log (.element path) (.element head content)

/-- The instance of a node: the one at the top for the mount, and below it one whose parent is made for
the node around. -/
inductive Describes (log : List DeclaredNode) : DeclaredNode → RenderedInstance → Prop
  | top {x : RenderedInstance} : x.parent? = none → x.kind = .root →
    Describes log (f.mountPath, f.mount) x
  | below {path : List Nat} {k : Nat} {node : FixtureNode} {x : RenderedInstance} {owner : InstanceId} :
    f.mountPath <+: path → f.Names log path owner → x.parent? = some owner → x.Represents node →
    Describes log (path ++ [k], node) x

/-- A portal waits with the instance made for it. -/
inductive Awaits (log : List DeclaredNode) : DeclaredNode → PendingPortal → Prop
  | portal {path : List Nat} {target : String} {children : List FixtureNode} {owner : InstanceId} :
    f.mountPath <+: path → f.Names log path owner →
    Awaits log (path, .portal target children) ⟨target, children, owner⟩

/-- Serials count the elements made, and those with an id are known by it, the first one first. -/
structure Counts (log : List DeclaredNode) (s : RenderState) : Prop where
  serial : s.serial = (made log).length
  ids : ∀ id, Fields.find? id s.ids = (made log).findIdx? fun d => d.2.id? == some id

/-- What there is when some nodes have been met and some portals wait. -/
structure Records (log queue : List DeclaredNode) (s : RenderState) : Prop where
  counts : Counts log s
  instances : List.Forall₂ (f.Describes log) (f.graph log) s.instances
  pending : List.Forall₂ (f.Awaits log) queue s.pending

/-- An element stands for the node with its serial. In the app it has the host made for the node. It
holds what the node shows and what is added to that. -/
structure Fits (log : List DeclaredNode) (added : List Nat → List (ContentItem (List Nat)))
    (head : ElementHead) (content : List ElementTree) (d : DeclaredNode) : Prop where
  here : (made log)[head.serial]? = some d
  renders : head.Renders d.2
  host : ∀ i, head.host? = some i → f.Names log d.1 i
  hosted : f.mountPath <+: d.1 → d.1 ≠ f.mountPath → head.host?.isSome
  content : List.Forall₂ (DrawnAs log) (ownContent d.1 d.2 ++ added d.1) content

/-- Every element of a tree stands for some node, with what is added to it. -/
def Fitted (log : List DeclaredNode) (added : List Nat → List (ContentItem (List Nat))) :
    ElementTree → Prop :=
  Everywhere fun head content => ∃ d, f.Fits log added head content d

def FittedAll (log : List DeclaredNode) (added : List Nat → List (ContentItem (List Nat))) :
    List ElementTree → Prop :=
  EverywhereAll fun head content => ∃ d, f.Fits log added head content d

/-- What there is when more nodes have been met, drawn as these trees, to which nothing is added so
far. -/
structure Adds (log queue more : List DeclaredNode) (t : RenderState)
    (shown : List (ContentItem (List Nat))) (trees : List ElementTree) : Prop where
  records : f.Records (log ++ more) (queue ++ more.filter (·.2.isPortal)) t
  shows : List.Forall₂ (DrawnAs (log ++ more)) shown trees
  fits : ∀ added, (∀ d ∈ more, added d.1 = []) → f.FittedAll (log ++ more) added trees

end Fixture

namespace Fixture

variable {f : Fixture} {log more queue : List DeclaredNode} {path : List Nat} {place : Nat}
  {node : FixtureNode} {d : DeclaredNode} {s t : RenderState} {i owner : InstanceId}

/-! ### What is known stays known -/

@[simp] theorem made_append : made (log ++ more) = made log ++ made more := List.filter_append ..

@[simp] theorem graph_append : f.graph (log ++ more) = f.graph log ++ f.graph more := List.filter_append ..

theorem Names.mono (h : f.Names log path i) : f.Names (log ++ more) path i := by
  obtain ⟨d, here, same⟩ := Option.map_eq_some_iff.mp h
  rw [Names, graph_append, List.getElem?_append_left (List.getElem?_eq_some_iff.mp here).1, here]
  exact congrArg some same

theorem getElem?_made_mono {n : Nat} (h : (made log)[n]? = some d) : (made (log ++ more))[n]? = some d := by
  rw [made_append, List.getElem?_append_left (List.getElem?_eq_some_iff.mp h).1, h]

theorem DrawnAs.mono {item : ContentItem (List Nat)} {tree : ElementTree} (h : DrawnAs log item tree) :
    DrawnAs (log ++ more) item tree := by
  cases h with
  | text => exact .text
  | element here =>
    obtain ⟨d, here, same⟩ := Option.map_eq_some_iff.mp here
    exact .element (by rw [getElem?_made_mono here]; exact congrArg some same)

theorem Describes.mono {x : RenderedInstance} (h : f.Describes log d x) :
    f.Describes (log ++ more) d x := by
  cases h with
  | top parent kind => exact .top parent kind
  | below inside names parent represents => exact .below inside names.mono parent represents

theorem Awaits.mono {portal : PendingPortal} (h : f.Awaits log d portal) :
    f.Awaits (log ++ more) d portal := by
  cases h with
  | portal inside names => exact .portal inside names.mono

theorem Fits.mono {added : List Nat → List (ContentItem (List Nat))} {head : ElementHead}
    {content : List ElementTree} (h : f.Fits log added head content d) :
    f.Fits (log ++ more) added head content d where
  here := getElem?_made_mono h.here
  renders := h.renders
  host i known := (h.host i known).mono
  hosted := h.hosted
  content := h.content.imp fun _ _ => DrawnAs.mono

/-! ### One more node -/

theorem find?_numbered {attributes : List (String × String)} (id : String) :
    Fields.find? id (s.numbered attributes).ids = (Fields.find? id s.ids).or
      (if Fields.find? "id" attributes = some id then some s.serial else none) := by
  have append : ∀ {ids : List (String × Nat)} {own : String} {n : Nat},
      Fields.find? id (ids ++ [(own, n)]) =
        (Fields.find? id ids).or (if own = id then some n else none) := by
    intro ids own n
    induction ids with
    | nil => rfl
    | cons entry rest ih =>
      rw [List.cons_append, Fields.find?, Fields.find?, ih]
      split <;> rfl
  unfold RenderState.numbered
  dsimp only
  cases Fields.find? "id" attributes with
  | none => simp
  | some own => simp [append]

/-- One more element. -/
theorem Counts.element (h : Counts log s) {tag : String} {attributes : List (String × String)}
    {text? : Option String} {rect? : Option Rect} {children : List FixtureNode}
    (serial : t.serial = s.serial + 1) (ids : t.ids = (s.numbered attributes).ids) :
    Counts (log ++ [(path, .element tag attributes text? rect? children)]) t where
  serial := by
    rw [serial, h.serial, made_append, List.length_append]
    rfl
  ids id := by
    have known : (made [((path, .element tag attributes text? rect? children) : DeclaredNode)]).findIdx?
        (fun d => d.2.id? == some id) = if Fields.find? "id" attributes = some id then some 0 else none := by
      rw [show made [((path, .element tag attributes text? rect? children) : DeclaredNode)] =
        [(path, .element tag attributes text? rect? children)] from rfl]
      by_cases same : Fields.find? "id" attributes = some id <;> simp [id?, same]
    rw [ids, find?_numbered, h.ids, made_append, List.findIdx?_append, known, h.serial]
    split <;> simp

/-- One more node that is no element. -/
theorem Counts.other (h : Counts log s) (other : node.isElement = false) (serial : t.serial = s.serial)
    (ids : t.ids = s.ids) : Counts (log ++ [(path, node)]) t := by
  have none : made [(path, node)] = [] := List.filter_cons_of_neg (by simp [other])
  have same : made (log ++ [(path, node)]) = made log := by rw [made_append, none, List.append_nil]
  exact ⟨by rw [same, serial, h.serial], fun id => by rw [same, ids, h.ids]⟩

theorem graph_eq_of_inside (inside : f.mountPath <+: path) (speaks : node.isText = false) :
    f.graph [(path, node)] = [(path, node)] :=
  List.filter_cons_of_pos (by simp [inside, speaks])

theorem graph_eq_of_below (inside : f.mountPath <+: path) (speaks : node.isText = false) :
    f.graph [(path ++ [place], node)] = [(path ++ [place], node)] :=
  graph_eq_of_inside (inside.trans (List.prefix_append _ _)) speaks

namespace Records

/-- A node without an instance of its own. -/
theorem instances_skip (h : f.Records log queue s) (none : f.graph [d] = []) :
    List.Forall₂ (f.Describes (log ++ [d])) (f.graph (log ++ [d])) s.instances := by
  rw [graph_append, none, List.append_nil]
  exact h.instances.imp fun _ _ => Describes.mono

/-- A node with its instance. -/
theorem instances_concat (h : f.Records log queue s) (one : f.graph [d] = [d]) {x : RenderedInstance}
    (describes : f.Describes (log ++ [d]) d x) :
    List.Forall₂ (f.Describes (log ++ [d])) (f.graph (log ++ [d])) (s.instances ++ [x]) := by
  rw [graph_append, one]
  exact List.rel_append (h.instances.imp fun _ _ => Describes.mono) (.cons describes .nil)

theorem pending_mono (h : f.Records log queue s) :
    List.Forall₂ (f.Awaits (log ++ more)) queue s.pending := h.pending.imp fun _ _ => Awaits.mono

/-- The next instance is made for the node that is met next. -/
theorem names_next (h : f.Records log queue s) (one : f.graph [d] = [d]) :
    f.Names (log ++ [d]) d.1 s.nextInstance := by
  have length : (f.graph log).length = s.nextInstance.index := h.instances.length_eq
  rw [Names, graph_append, one, ← length, List.getElem?_concat_length]
  rfl

theorem text (h : f.Records log queue s) {x : String} : f.Records (log ++ [(path, .text x)]) queue s where
  counts := h.counts.other rfl rfl rfl
  instances := h.instances_skip (List.filter_cons_of_neg (by simp [isText]))
  pending := h.pending_mono

/-- An element outside the app. -/
theorem outside (h : f.Records log queue s) (outside : ¬f.mountPath <+: path) {tag : String}
    {attributes : List (String × String)} {text? : Option String} {rect? : Option Rect}
    {children : List FixtureNode} :
    f.Records (log ++ [(path, .element tag attributes text? rect? children)]) queue
      (s.numbered attributes) where
  counts := h.counts.element rfl rfl
  instances := h.instances_skip (List.filter_cons_of_neg (by simp [outside]))
  pending := h.pending_mono

/-- The mount, for which the instance at the top is made. -/
theorem mounted (h : f.Records log queue s) : f.Records (log ++ [(f.mountPath, f.mount)]) queue s.mounted where
  counts := h.counts.element rfl rfl
  instances := h.instances_concat (graph_eq_of_inside (List.prefix_refl _) rfl) (.top rfl rfl)
  pending := h.pending_mono

section inside

variable (h : f.Records log queue s) (inside : f.mountPath <+: path) (names : f.Names log path owner)

include h inside names

/-- An element of the app with its host. -/
theorem hosting {tag : String} {attributes : List (String × String)} {text? : Option String}
    {rect? : Option Rect} {children : List FixtureNode} :
    f.Records (log ++ [(path ++ [place], .element tag attributes text? rect? children)]) queue
      (s.hosting owner tag attributes) where
  counts := h.counts.element rfl rfl
  instances := h.instances_concat (graph_eq_of_below inside rfl)
    (.below inside names.mono rfl ⟨rfl, rfl, rfl⟩)
  pending := h.pending_mono

/-- A component. -/
theorem placing {name : String} {kind : ComponentKind} {displayName? : Option String} {props : Json}
    {children : List FixtureNode} :
    f.Records (log ++ [(path ++ [place], .component name kind displayName? props children)]) queue
      (s.placing owner name kind displayName? props) where
  counts := h.counts.other rfl backing_serial backing_ids
  instances := placing_instances ▸ h.instances_concat (graph_eq_of_below inside rfl)
    (.below inside names.mono rfl ⟨rfl, rfl, rfl⟩)
  pending := by
    have same : (s.placing owner name kind displayName? props).pending = s.pending := by
      show (s.backing kind).pending = _
      cases kind <;> rfl
    rw [same]
    exact h.pending_mono

/-- A portal, which waits behind all others. -/
theorem deferring {target : String} {children : List FixtureNode} :
    f.Records (log ++ [(path ++ [place], .portal target children)])
      (queue ++ [(path ++ [place], .portal target children)]) (s.deferring owner target children) where
  counts := h.counts.other rfl rfl rfl
  instances := h.instances_concat (graph_eq_of_below inside rfl)
    (.below inside names.mono rfl ⟨rfl, rfl, rfl⟩)
  pending := List.rel_append h.pending_mono (.cons (.portal
    (inside.trans (List.prefix_append _ _))
    (h.names_next (graph_eq_of_below inside rfl))) .nil)

end inside

end Records

namespace Adds

variable {u : RenderState} {first second : List DeclaredNode}
  {shown shown' : List (ContentItem (List Nat))} {trees trees' : List ElementTree}

theorem nothing (h : f.Records log queue s) : f.Adds log queue [] s [] [] where
  records := by simpa using h
  shows := .nil
  fits _ _ := trivial

/-- What is drawn after something else stands behind it. -/
theorem append (h : f.Adds log queue first t shown trees)
    (h' : f.Adds (log ++ first) (queue ++ first.filter (·.2.isPortal)) second u shown' trees') :
    f.Adds log queue (first ++ second) u (shown ++ shown') (trees ++ trees') where
  records := by
    rw [List.filter_append, ← List.append_assoc, ← List.append_assoc]
    exact h'.records
  shows := by
    rw [← List.append_assoc]
    exact List.rel_append (h.shows.imp fun _ _ => DrawnAs.mono) h'.shows
  fits added none := by
    obtain ⟨none, none'⟩ := List.forall_mem_append.mp none
    rw [← List.append_assoc]
    exact everywhereAll_append.mpr
      ⟨(h.fits added none).imp fun _ _ ⟨d, fits⟩ => ⟨d, fits.mono⟩, h'.fits added none'⟩

/-- A component shows what stands in it. -/
theorem component (h : f.Adds (log ++ [d]) queue more t shown trees) (other : d.2.isPortal = false) :
    f.Adds log queue (d :: more) t shown trees where
  records := by
    rw [List.append_cons, List.filter_cons_of_neg (by simp [other])]
    exact h.records
  shows := List.append_cons .. ▸ h.shows
  fits added none := List.append_cons .. ▸ h.fits added fun e mem => none e (List.mem_cons_of_mem _ mem)

theorem text (h : f.Records log queue s) (path : List Nat) (x : String) :
    f.Adds log queue [(path, .text x)] s [.text x] [.text x] where
  records := by simpa [isPortal] using h.text
  shows := .cons .text .nil
  fits _ _ := ⟨trivial, trivial⟩

/-- A portal shows nothing where it stands. -/
theorem portal {target : String} {children : List FixtureNode}
    (h : f.Records (log ++ [(path, .portal target children)])
      (queue ++ [(path, .portal target children)]) s) :
    f.Adds log queue [(path, .portal target children)] s [] [] where
  records := h
  shows := .nil
  fits _ _ := trivial

/-- An element holds its text and then what stands in it. -/
theorem element {text? : Option String} {head : ElementHead} {content : List ElementTree}
    (h : f.Adds (log ++ [(path, node)]) queue more t shown content)
    (own : ownContent path node = text?.toList.map .text ++ shown) (renders : head.Renders node)
    (serial : head.serial = (made log).length)
    (host : ∀ i, head.host? = some i → f.Names (log ++ [(path, node)]) path i)
    (hosted : f.mountPath <+: path → path ≠ f.mountPath → head.host?.isSome) :
    f.Adds log queue ((path, node) :: more) t [.element path]
      [.element head (leadingText text? ++ content)] := by
  have isElement : made [(path, node)] = [(path, node)] := by
    cases node <;> first | rfl | exact renders.elim
  have isPortal : node.isPortal = false := by
    cases node <;> first | rfl | exact renders.elim
  have here : (made (log ++ [(path, node)]))[head.serial]? = some (path, node) := by
    rw [made_append, isElement, serial]
    exact List.getElem?_concat_length
  have leading : List.Forall₂ (DrawnAs (log ++ [(path, node)] ++ more))
      (text?.toList.map .text) (leadingText text?) := by
    cases text? with
    | none => exact .nil
    | some x => exact .cons .text .nil
  refine ⟨(h.component isPortal).records, ?_, fun added none => ?_⟩ <;> rw [List.append_cons]
  · refine .cons (.element ?_) .nil
    rw [getElem?_made_mono here]
    rfl
  · obtain ⟨none, later⟩ := List.forall_mem_cons.mp none
    refine ⟨⟨⟨(path, node), getElem?_made_mono here, renders, fun i known => (host i known).mono,
      hosted, ?_⟩, everywhereAll_append.mpr ⟨everywhereAll_leadingText, h.fits added later⟩⟩, trivial⟩
    rw [none, List.append_nil, own]
    exact List.rel_append leading h.shows

/-- An element of the frame. It has no host. -/
theorem frame {tag : String} {attributes : List (String × String)} {children : List FixtureNode} {n : Nat}
    {content : List ElementTree}
    (h : f.Adds (log ++ [(path, .element tag attributes none none children)]) queue more t
      (shownAll path 0 children) content)
    (lower : tag = lowerTag tag) (serial : n = (made log).length)
    (top : f.mountPath <+: path → path = f.mountPath) :
    f.Adds log queue ((path, .element tag attributes none none children) :: more) t [.element path]
      [Render.frame n tag attributes content] := by
  have renders : ElementHead.Renders ⟨n, tag, attributes, none, none⟩
      (.element tag attributes none none children) := ⟨lower, rfl, rfl⟩
  exact h.element rfl renders serial nofun fun inside differ => absurd (top inside) differ

end Adds

end Fixture

open Fixture

variable {f : Fixture} {log queue : List DeclaredNode} {path : List Nat} {place : Nat}
  {s t : RenderState} {nodes : List FixtureNode} {trees : List ElementTree}

/-- Nodes outside the app, one after another. -/
theorem MarkupDrawn.adds (drawn : MarkupDrawn nodes s trees t) :
    ∀ (path : List Nat) (place : Nat) {log queue : List DeclaredNode}, f.Records log queue s →
      (∀ d ∈ metAll path place nodes, ¬f.mountPath <+: d.1) →
      f.Adds log queue (metAll path place nodes) t (shownAll path place nodes) trees := by
  induction drawn with
  | nothing =>
    intro path place log queue h _
    exact .nothing h
  | @text x _ _ _ _ _ ih =>
    intro path place log queue h outside
    have whole := Adds.text h (path ++ [place]) x
    exact whole.append (ih _ _ whole.records fun d mem => outside d (List.mem_append_right _ mem))
  | @element tag attributes text? rect? children _ s _ _ _ _ _ _ inner outer =>
    intro path place log queue h outside
    have off := outside _ (List.mem_append_left _ List.mem_cons_self)
    have first : f.Records (log ++ [(path ++ [place], .element tag attributes text? rect? children)])
        queue (s.numbered attributes) := h.outside off
    have renders : (s.nextHead tag attributes rect? none).Renders
        (.element tag attributes text? rect? children) := ⟨rfl, rfl, rfl⟩
    have within := inner _ 0 first fun d mem =>
      outside d (List.mem_append_left _ (List.mem_cons_of_mem _ mem))
    have whole := within.element rfl renders h.counts.serial nofun fun inside => absurd inside off
    exact whole.append (outer _ _ whole.records fun d mem => outside d (List.mem_append_right _ mem))

/-- **Nodes of the app, one after another, below the instance of the node that they stand in.** -/
theorem Drawn.adds {owner : InstanceId} (drawn : Drawn owner nodes s trees t) :
    ∀ (path : List Nat) (place : Nat) {log queue : List DeclaredNode}, f.Records log queue s →
      f.mountPath <+: path → f.Names log path owner →
      f.Adds log queue (metAll path place nodes) t (shownAll path place nodes) trees := by
  induction drawn with
  | nothing =>
    intro path place log queue h _ _
    exact .nothing h
  | @text _ x _ _ _ _ _ ih =>
    intro path place log queue h inside names
    have whole := Adds.text h (path ++ [place]) x
    exact whole.append (ih _ _ whole.records inside names.mono)
  | @element owner tag attributes text? rect? children _ s _ _ _ _ _ _ inner outer =>
    intro path place log queue h inside names
    have first : f.Records (log ++ [(path ++ [place], .element tag attributes text? rect? children)])
        queue (s.hosting owner tag attributes) := h.hosting inside names
    have named : f.Names (log ++ [(path ++ [place], .element tag attributes text? rect? children)])
        (path ++ [place]) s.nextInstance := h.names_next (graph_eq_of_below inside rfl)
    have renders : (s.nextHead tag attributes rect? (some s.nextInstance)).Renders
        (.element tag attributes text? rect? children) := ⟨rfl, rfl, rfl⟩
    have within := inner _ 0 first (inside.trans (List.prefix_append _ _)) named
    have whole := within.element rfl renders h.counts.serial
      (fun i known => Option.some.inj known ▸ named) fun _ _ => rfl
    exact whole.append (outer _ _ whole.records inside names.mono)
  | @component owner name kind displayName? props children _ s _ _ _ _ _ _ inner outer =>
    intro path place log queue h inside names
    have first : f.Records (log ++ [(path ++ [place], .component name kind displayName? props children)])
        queue (s.placing owner name kind displayName? props) := h.placing inside names
    have named : f.Names (log ++ [(path ++ [place], .component name kind displayName? props children)])
        (path ++ [place]) s.nextInstance := h.names_next (graph_eq_of_below inside rfl)
    have within := inner _ 0 first (inside.trans (List.prefix_append _ _)) named
    have whole := within.component rfl
    exact whole.append (outer _ _ whole.records inside names.mono)
  | @portal owner target children _ s _ _ _ ih =>
    intro path place log queue h inside names
    have first : f.Records (log ++ [(path ++ [place], .portal target children)])
        (queue ++ [(path ++ [place], .portal target children)]) (s.deferring owner target children) :=
      h.deferring inside names
    have whole := Adds.portal first
    exact whole.append (ih _ _ whole.records inside names.mono)

namespace Fixture

/-! ### The document before portals are drawn -/

/-- The frame with the markup and the app shows everything that is met before portals have their turn. -/
theorem rootDocument_adds {f : Fixture} {markup app : List ElementTree} {s t : RenderState}
    (outside : MarkupDrawn f.markup ⟨3, [], [], 0, []⟩ markup s)
    (inside : Drawn s.nextInstance f.app s.mounted app t) :
    f.Adds [] [] (met [] f.document) t [.element []] [rootDocument s.serial markup app] := by
  have off : ∀ {path : List Nat}, path.length < 2 → ¬f.mountPath <+: path := fun short inside =>
    absurd inside.length_le (Nat.not_le.mpr short)
  have start : f.Records [] [] ⟨0, [], [], 0, []⟩ := ⟨⟨rfl, fun _ => rfl⟩, .nil, .nil⟩
  have top : f.Records ([] ++ [([], f.document)]) [] ⟨1, [], [], 0, []⟩ := start.outside (off (by decide))
  have second : f.Records ([] ++ [([], f.document)] ++ [([0], head)]) [] ⟨2, [], [], 0, []⟩ :=
    top.outside (off (by decide))
  have third : f.Records ([] ++ [([], f.document)] ++ [([0], head)] ++ [(bodyPath, f.body)]) []
      ⟨3, [], [], 0, []⟩ := second.outside (off (by decide))
  have around := outside.adds bodyPath 0 third fun _ => f.outside_of_mem_markup
  have named := around.records.names_next (graph_eq_of_inside (List.prefix_refl f.mountPath)
    (show f.mount.isText = false from rfl))
  have within := inside.adds f.mountPath 0 around.records.mounted (List.prefix_refl _) named
  have mounted := within.frame (by decide) around.records.counts.serial fun _ => rfl
  have content := around.append mounted
  have all : shownAll bodyPath 0 (f.markup ++ [f.mount]) =
      shownAll bodyPath 0 f.markup ++ [.element f.mountPath] := by
    rw [shownAll_append, Nat.zero_add]
    rfl
  rw [← all] at content
  have bodied := content.frame (by decide) second.counts.serial fun inside => absurd inside (off (by decide))
  have headed : f.Adds ([] ++ [([], f.document)]) [] [([0], head)] ⟨2, [], [], 0, []⟩ [.element [0]]
      [Render.frame 1 "head" [] []] :=
    (Adds.nothing second).frame (by decide) top.counts.serial fun inside => absurd inside (off (by decide))
  have whole := (headed.append bodied).frame (by decide) start.counts.serial fun inside =>
    absurd inside (off (by decide))
  have order : met [] f.document = ([], f.document) :: ([([0], head)] ++ (bodyPath, f.body) ::
      (metAll bodyPath 0 f.markup ++ (f.mountPath, f.mount) :: metAll f.mountPath 0 f.app)) := by
    rw [met_document]
    simp
  rw [order]
  exact whole

end Fixture

end PageQuery

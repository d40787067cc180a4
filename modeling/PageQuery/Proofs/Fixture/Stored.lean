/-
# An arena stores the document that is rendered

The elements of a document are stored in an arena when each stands where its serial says, with the serials
of its parent and its children. New trees are stored behind all others, their elements in the order in
which they are made; when they are added to an element, no other element changes. So through all portals
the arena stores the document, and both renderings refuse a fixture for the same reason.

Key definitions: `ElementTree.Stored`, `HostNode.idsFrom`, `Arena.Keeps`, `Arena.Agree`.
Key theorems: `ElementTree.stored_of_range`, `ElementTree.stored_appendTo`, `Arena.portals_agree`,
`Fixture.arrange_agree`.
-/
import PageQuery.Proofs.Fixture.Arranging

namespace PageQuery

open ElementTree Render RenderState

namespace ElementTree

/-! ### Stored trees -/

mutual

/-- The elements of a tree stand where their serials say. -/
def Stored (nodes : List HostNode) (parent? : Option NodeId) : ElementTree → Prop
  | .text _ => True
  | .element head content =>
    nodes[head.serial]? = some (head.node parent? content) ∧
      StoredAll nodes (some ⟨head.serial⟩) content

def StoredAll (nodes : List HostNode) (parent? : Option NodeId) : List ElementTree → Prop
  | [] => True
  | t :: rest => Stored nodes parent? t ∧ StoredAll nodes parent? rest

end

variable {nodes : List HostNode} {parent? : Option NodeId}

theorem storedAll_append {first second : List ElementTree} :
    StoredAll nodes parent? (first ++ second) ↔
      StoredAll nodes parent? first ∧ StoredAll nodes parent? second := by
  induction first with
  | nil => exact (and_iff_right trivial).symm
  | cons t rest ih => rw [List.cons_append, StoredAll, StoredAll, ih, and_assoc]

@[simp] theorem length_heads (t : ElementTree) : (heads t).length = size t := by
  rw [← map_head_placed none 0, List.length_map, length_placed]

mutual

/-- Elements that are numbered in a row and stand in a row are stored. -/
theorem stored_of_range : ∀ {t : ElementTree} {parent? : Option NodeId} {before after : List HostNode},
    (heads t).map (·.serial) = List.range' before.length (size t) →
      Stored (before ++ (arenaNodes parent? t ++ after)) parent? t
  | .text _, _, _, _, _ => trivial
  | .element head content, parent?, before, after, numbered => by
    rw [heads, size, Nat.add_comm, List.range'_succ, List.map_cons] at numbered
    obtain ⟨here, later⟩ := List.cons.inj numbered
    refine ⟨?_, ?_⟩
    · rw [here, List.getElem?_append_right (Nat.le_refl _), Nat.sub_self]
      rfl
    · have inner := @storedAll_of_range content (some ⟨head.serial⟩) (before ++ [head.node parent? content])
        after (by simpa using later)
      rwa [List.append_assoc] at inner

theorem storedAll_of_range : ∀ {ts : List ElementTree} {parent? : Option NodeId}
    {before after : List HostNode}, (headsAll ts).map (·.serial) = List.range' before.length (sizeAll ts) →
      StoredAll (before ++ (arenaNodesAll parent? ts ++ after)) parent? ts
  | [], _, _, _, _ => trivial
  | t :: rest, parent?, before, after, numbered => by
    rw [headsAll, sizeAll, List.map_append, ← List.range'_append_1] at numbered
    have length : ((heads t).map (·.serial)).length = (List.range' before.length (size t)).length := by
      rw [List.length_map, List.length_range', length_heads]
    obtain ⟨first, later⟩ := List.append_inj numbered length
    refine ⟨?_, ?_⟩
    · have inner := @stored_of_range t parent? before (arenaNodesAll parent? rest ++ after) first
      rwa [← List.append_assoc (arenaNodes parent? t)] at inner
    · have inner := @storedAll_of_range rest parent? (before ++ arenaNodes parent? t) after
        (by simpa using later)
      rwa [List.append_assoc, ← List.append_assoc (arenaNodes parent? t)] at inner

end

/-! ### Trees that are added -/

@[simp] theorem item_appendTo {serial : Nat} {more : List ElementTree} (t : ElementTree) :
    (appendTo serial more t).item = t.item := by
  cases t <;> rfl

theorem map_item_appendToAll {serial : Nat} {more : List ElementTree} (ts : List ElementTree) :
    (appendToAll serial more ts).map item = ts.map item := by
  induction ts with
  | nil => rfl
  | cons t rest ih => rw [appendToAll, List.map_cons, List.map_cons, item_appendTo, ih]

section adding

variable {n : Nat} {trees : List ElementTree}

mutual

/-- **Trees that are added to an element are stored in it, and all else stays stored.** -/
theorem stored_appendTo {after : List HostNode}
    (agrees : ∀ m < nodes.length, after[m]? = (nodes.modify n (·.holding (trees.map item)))[m]?)
    (new : StoredAll after (some ⟨n⟩) trees) : ∀ {t : ElementTree} {parent? : Option NodeId},
      Stored nodes parent? t → Stored after parent? (appendTo n trees t)
  | .text _, _, _ => trivial
  | .element head content, parent?, ⟨here, inner⟩ => by
    have rest := storedAll_appendToAll agrees new inner
    have inside : head.serial < nodes.length := (List.getElem?_eq_some_iff.mp here).1
    have there : after[head.serial]? =
        some (if n = head.serial then (head.node parent? content).holding (trees.map item)
          else head.node parent? content) := by
      rw [agrees _ inside, List.getElem?_modify, here]
      rfl
    rw [appendTo]
    by_cases target : head.serial = n
    · rw [if_pos target]
      refine ⟨?_, storedAll_append.mpr ⟨rest, target ▸ new⟩⟩
      rw [there, if_pos target.symm, ElementHead.node, ElementHead.node, List.map_append,
        map_item_appendToAll]
      rfl
    · rw [if_neg target]
      refine ⟨?_, rest⟩
      rw [there, if_neg (Ne.symm target), ElementHead.node, ElementHead.node, map_item_appendToAll]

theorem storedAll_appendToAll {after : List HostNode}
    (agrees : ∀ m < nodes.length, after[m]? = (nodes.modify n (·.holding (trees.map item)))[m]?)
    (new : StoredAll after (some ⟨n⟩) trees) : ∀ {ts : List ElementTree} {parent? : Option NodeId},
      StoredAll nodes parent? ts → StoredAll after parent? (appendToAll n trees ts)
  | [], _, _ => trivial
  | _ :: _, _, ⟨first, rest⟩ => ⟨stored_appendTo agrees new first, storedAll_appendToAll agrees new rest⟩

end

end adding

end ElementTree

/-! ### Ids -/

namespace HostNode

/-- The ids of elements that stand from a place on, with their places. -/
def idsFrom (place : Nat) : List HostNode → List (String × Nat)
  | [] => []
  | node :: rest => ((Fields.find? "id" node.attributes).map fun id => (id, place)).toList ++
      idsFrom (place + 1) rest

theorem idsFrom_append (second : List HostNode) : ∀ (first : List HostNode) (place : Nat),
    idsFrom place (first ++ second) = idsFrom place first ++ idsFrom (place + first.length) second
  | [], _ => rfl
  | node :: first, place => by
    rw [List.cons_append, idsFrom, idsFrom, idsFrom_append second first, List.length_cons,
      List.append_assoc, Nat.add_assoc, Nat.add_comm 1]

/-- What elements hold makes no difference. -/
theorem idsFrom_modify {more : List (ContentItem NodeId)} : ∀ (nodes : List HostNode) (n place : Nat),
    idsFrom place (nodes.modify n (·.holding more)) = idsFrom place nodes
  | [], n, _ => by cases n <;> rfl
  | _ :: _, 0, _ => rfl
  | node :: nodes, n + 1, place => congrArg (_ ++ ·) (idsFrom_modify nodes n (place + 1))

/-- The place of the first element with an id. -/
theorem find?_idsFrom (id : String) : ∀ (nodes : List HostNode) (place : Nat),
    Fields.find? id (idsFrom place nodes) =
      (nodes.findIdx? fun node => Fields.find? "id" node.attributes == some id).map (· + place)
  | [], _ => rfl
  | node :: nodes, place => by
    have later := find?_idsFrom id nodes (place + 1)
    have shift : ((· + place) ∘ fun i : Nat => i + 1) = (· + (place + 1)) := by
      funext i
      exact Nat.add_right_comm i 1 place
    rw [idsFrom, List.findIdx?_cons]
    cases known : Fields.find? "id" node.attributes with
    | none =>
      rw [show (none == some id) = false from rfl, if_neg Bool.false_ne_true, Option.map_map, shift]
      exact later
    | some own =>
      show (if own = id then some place else Fields.find? id (idsFrom (place + 1) nodes)) = _
      by_cases same : own = id
      · rw [if_pos same, if_pos (by rw [same]; exact beq_self_eq_true _), Option.map_some, Nat.zero_add]
      · rw [if_neg same, if_neg (by simpa using same), Option.map_map, shift, later]

end HostNode

/-! ### What is drawn -/

namespace RenderState

variable {s : RenderState} {node : HostNode}

theorem numbered_ids {attributes : List (String × String)} (own : attributes = node.attributes) :
    (s.numbered attributes).ids = s.ids ++ HostNode.idsFrom s.serial [node] := by
  rw [HostNode.idsFrom, HostNode.idsFrom, ← own, List.append_nil]
  unfold numbered
  dsimp only
  cases Fields.find? "id" attributes with
  | none => exact (List.append_nil _).symm
  | some id => rfl

end RenderState

/-- What drawing trees does to the count of elements and to their ids. -/
structure Numbered (s : RenderState) (trees : List ElementTree) (t : RenderState) : Prop where
  serials : (headsAll trees).map (·.serial) = List.range' s.serial (sizeAll trees)
  ids : ∀ parent? : Option NodeId,
    t.ids = s.ids ++ HostNode.idsFrom s.serial (arenaNodesAll parent? trees)
  serial : t.serial = s.serial + sizeAll trees

namespace Numbered

variable {s t u : RenderState} {trees more : List ElementTree}

theorem nothing (serial : t.serial = s.serial) (ids : t.ids = s.ids) : Numbered s [] t where
  serials := rfl
  ids _ := ids.trans (List.append_nil _).symm
  serial := serial

theorem text {x : String} : Numbered s [.text x] s where
  serials := rfl
  ids _ := (List.append_nil _).symm
  serial := rfl

theorem append (first : Numbered s trees t) (second : Numbered t more u) :
    Numbered s (trees ++ more) u where
  serials := by
    rw [headsAll_append, List.map_append, first.serials, second.serials, first.serial, sizeAll_append,
      List.range'_append_1]
  ids parent? := by
    rw [second.ids parent?, first.ids parent?, arenaNodesAll_append, HostNode.idsFrom_append,
      length_arenaNodesAll, List.append_assoc, first.serial]
  serial := by rw [second.serial, first.serial, sizeAll_append, Nat.add_assoc]

/-- A state in which as many elements have been made and the same ids are known. -/
theorem of_eq (h : Numbered s trees t) (serial : u.serial = s.serial) (ids : u.ids = s.ids) :
    Numbered u trees t where
  serials := serial ▸ h.serials
  ids parent? := by rw [serial, ids, h.ids parent?]
  serial := serial ▸ h.serial

/-- An element around what was drawn since it was numbered. -/
theorem element {head : ElementHead} {text? : Option String} {content : List ElementTree}
    (here : head.serial = s.serial) (serial : t.serial = s.serial + 1)
    (ids : t.ids = (s.numbered head.attributes).ids) (h : Numbered t content u) :
    Numbered s [.element head (leadingText text? ++ content)] u where
  serials := by
    rw [headsAll, headsAll, List.append_nil, heads, headsAll_leadingText, sizeAll, size,
      sizeAll_append, sizeAll_leadingText, sizeAll, List.map_cons, h.serials, serial, here,
      Nat.zero_add, Nat.add_zero, Nat.add_comm 1, List.range'_succ]
  ids parent? := by
    have own := @numbered_ids s (head.node parent? (leadingText text? ++ content)) head.attributes rfl
    rw [h.ids (some ⟨head.serial⟩), ids, own, arenaNodesAll, arenaNodesAll, List.append_nil, arenaNodes,
      arenaNodesAll_append, arenaNodesAll_leadingText, List.nil_append, List.append_assoc, serial]
    exact congrArg (s.ids ++ ·) (HostNode.idsFrom_append _ [_] _).symm
  serial := by
    rw [h.serial, serial, sizeAll, sizeAll, size, sizeAll_append, sizeAll_leadingText]
    omega

end Numbered

theorem MarkupDrawn.numbered {nodes : List FixtureNode} {s t : RenderState} {trees : List ElementTree}
    (drawn : MarkupDrawn nodes s trees t) : Numbered s trees t := by
  induction drawn with
  | nothing => exact .nothing rfl rfl
  | text _ ih => exact Numbered.text.append ih
  | @element tag attributes _ rect? _ _ s _ _ _ _ _ _ inner outer =>
    exact (@Numbered.element s _ _ (s.nextHead tag attributes rect? none) _ _ rfl rfl rfl inner).append outer

theorem Drawn.numbered {owner : InstanceId} {nodes : List FixtureNode} {s t : RenderState}
    {trees : List ElementTree} (drawn : Drawn owner nodes s trees t) : Numbered s trees t := by
  induction drawn with
  | nothing => exact .nothing rfl rfl
  | text _ ih => exact Numbered.text.append ih
  | @element owner tag attributes _ rect? _ _ s _ _ _ _ _ _ inner outer =>
    exact (@Numbered.element s (s.hosting owner tag attributes) _
      (s.nextHead tag attributes rect? (some s.nextInstance)) _ _ rfl rfl rfl inner).append outer
  | component _ _ inner outer => exact (inner.of_eq backing_serial.symm backing_ids.symm).append outer
  | portal _ ih => exact ih.of_eq rfl rfl

/-! ### Portals -/

namespace Arena

/-- The document that has been drawn so far is stored, each element that was made and the known ids. -/
structure Keeps (nodes : List HostNode) (document : ElementTree) (s : RenderState) : Prop where
  stored : Stored nodes none document
  length : nodes.length = s.serial
  ids : s.ids = HostNode.idsFrom 0 nodes
  body : 2 < nodes.length
  sound : s.Sound

/-- The two renderings fail for one reason, or both go on and the arena stores the document. -/
inductive Agree : Except FixtureError (ElementTree × RenderState) →
    Except FixtureError (Unit × Arena) → Prop
  | error (e : FixtureError) : Agree (.error e) (.error e)
  | ok {nodes : List HostNode} {document : ElementTree} {s : RenderState} : Keeps nodes document s →
    Agree (.ok (document, s)) (.ok ((), s.arena nodes))

variable {nodes : List HostNode} {document : ElementTree} {s t : RenderState}

/-- The same portal has its turn. -/
theorem nextPending_arena : nextPending (s.arena nodes) =
    (Render.nextPending s).map fun next => (next.1, next.2.arena nodes) := by
  obtain ⟨_, _, _, _, pending⟩ := s
  cases pending <;> rfl

/-- The same element is found for a portal. -/
theorem targetOf_arena (keeps : Keeps nodes document s) (target : String) :
    targetOf ⟨2⟩ target (s.arena nodes) =
      (Render.targetOf 2 target s).map fun found => (⟨found.1⟩, found.2.arena nodes) := by
  have found := HostNode.find?_idsFrom target nodes 0
  rw [← keeps.ids] at found
  unfold targetOf Render.targetOf
  split
  · rfl
  · rw [found, show (s.arena nodes).nodes = nodes from rfl]
    cases nodes.findIdx? fun node => Fields.find? "id" node.attributes == some target <;> rfl

theorem target_lt (keeps : Keeps nodes document s) {target : String} {n : Nat}
    (found : Render.targetOf 2 target s = .ok (n, t)) : n < nodes.length ∧ t = s := by
  obtain ⟨made, same⟩ := Render.targetOf_spec keeps.sound (keeps.length ▸ keeps.body) found
  exact ⟨keeps.length ▸ made, same.symm⟩

/-- **What is drawn into an element is stored, and the rest of the document stays stored.** -/
theorem Keeps.arranged {n : Nat} {trees : List ElementTree} (keeps : Keeps nodes document s)
    (numbered : Numbered s trees t) (sound : t.Sound) :
    Keeps (nodes.modify n (·.holding (trees.map item)) ++ arenaNodesAll (some ⟨n⟩) trees)
      (document.appendTo n trees) t where
  stored := by
    have length := List.length_modify (·.holding (trees.map item)) nodes n
    have new := @storedAll_of_range trees (some ⟨n⟩) (nodes.modify n (·.holding (trees.map item))) []
      (by rw [length, keeps.length]; exact numbered.serials)
    rw [List.append_nil] at new
    exact stored_appendTo (fun m lt => List.getElem?_append_left (by rwa [length])) new keeps.stored
  length := (@length_arranged nodes ⟨n⟩ trees).trans (by rw [keeps.length, numbered.serial])
  ids := by
    rw [numbered.ids (some ⟨n⟩), HostNode.idsFrom_append, HostNode.idsFrom_modify, List.length_modify,
      keeps.ids, Nat.zero_add, keeps.length]
  body := (keeps.body.trans_le (Nat.le_add_right _ _)).trans_eq (@length_arranged nodes ⟨n⟩ trees).symm
  sound := sound

/-- The run: by induction on the number of portals that have their turn. -/
theorem portals_agree : ∀ {count : Nat} {nodes : List HostNode} {document : ElementTree} {s : RenderState},
    Keeps nodes document s → Agree (Render.portals 2 count document s) (portals ⟨2⟩ count (s.arena nodes))
  | 0, _, _, _, keeps => .ok keeps
  | count + 1, nodes, document, s, keeps => by
    rw [Render.portals, portals]
    have taken := @nextPending_arena nodes s
    cases waiting : s.pending with
    | nil =>
      have none : Render.nextPending s = .ok (none, s) := by rw [Render.nextPending, waiting]
      rw [none] at taken
      rw [run_bind_of_ok none, run_bind_of_ok taken]
      exact .ok keeps
    | cons portal rest =>
      have next : Render.nextPending s = .ok (some portal, { s with pending := rest }) := by
        rw [Render.nextPending, waiting]
      rw [next] at taken
      obtain ⟨sound, owned⟩ := keeps.sound.popped waiting
      have popped : Keeps nodes document { s with pending := rest } := { keeps with sound }
      have target := targetOf_arena popped portal.target
      rw [run_bind_of_ok next, run_bind_of_ok taken]
      dsimp only
      cases found : Render.targetOf 2 portal.target { s with pending := rest } with
      | error e =>
        rw [found] at target
        rw [run_bind_of_error found, run_bind_of_error target]
        exact .error e
      | ok result =>
        obtain ⟨n, t⟩ := result
        obtain ⟨inside, rfl⟩ := target_lt popped found
        rw [found] at target
        have inner := @appNodes_arena portal.children ⟨n⟩ portal.owner { s with pending := rest } nodes
          keeps.length inside sound owned
        rw [run_bind_of_ok found, run_bind_of_ok target]
        dsimp only
        cases drawn : Render.appNodes portal.owner portal.children { s with pending := rest } with
        | error e =>
          rw [drawn] at inner
          rw [run_bind_of_error drawn, run_bind_of_error inner]
          exact .error e
        | ok result =>
          obtain ⟨trees, t⟩ := result
          rw [drawn] at inner
          rw [run_bind_of_ok drawn, run_bind_of_ok inner]
          exact portals_agree (popped.arranged (Render.appNodes_drawn drawn).numbered
            (Render.appNodes_draws sound owned drawn).sound)

/-! ### Documents -/

/-- The elements around all others, before they hold anything else. -/
def frameNodes : List HostNode :=
  [⟨"html", [], [.element ⟨1⟩, .element ⟨2⟩], none, none, none⟩,
    ⟨"head", [], [], some ⟨0⟩, none, none⟩, ⟨"body", [], [], some ⟨0⟩, none, none⟩]

/-- The state in which these have been made. -/
theorem sound_frame : RenderState.Sound ⟨3, [], [], 0, []⟩ where
  ids := nofun
  made := nofun
  distinct := .nil
  founded := nofun
  owned := nofun

theorem keeps_frame : Keeps frameNodes (frame 0 "html" [] [frame 1 "head" [] [], frame 2 "body" [] []])
    ⟨3, [], [], 0, []⟩ where
  stored := ⟨rfl, ⟨rfl, trivial⟩, ⟨rfl, trivial⟩, trivial⟩
  length := rfl
  ids := rfl
  body := by decide
  sound := sound_frame

/-- The mount with the app in it. -/
theorem numbered_mount {app : List ElementTree} (inside : Numbered s.mounted app t) :
    Numbered s [frame s.serial "div" [("id", "root")] app] t :=
  @Numbered.element s s.mounted t ⟨s.serial, "div", [("id", "root")], none, none⟩ none app rfl rfl rfl inside

/-- The document with some markup and the app in its mount is stored. -/
theorem keeps_rootDocument {markup app : List ElementTree}
    (outside : Numbered ⟨3, [], [], 0, []⟩ markup s) (inside : Numbered s.mounted app t) (sound : t.Sound) :
    Keeps (frameNodes.modify 2 (·.holding ((markup ++ [frame s.serial "div" [("id", "root")] app]).map item)) ++
      arenaNodesAll (some ⟨2⟩) (markup ++ [frame s.serial "div" [("id", "root")] app]))
        (rootDocument s.serial markup app) t :=
  keeps_frame.arranged (outside.append (numbered_mount inside)) sound

end Arena

open Arena

/-! ### The mount -/

section mount

variable {nodes : List HostNode} {s : RenderState}

/-- With the mount, and the instance at the top. -/
theorem RenderState.Sound.mounted (sound : s.Sound) : s.mounted.Sound := by
  obtain ⟨numbered, -⟩ := @newSerial_spec s _ sound [("id", "root")] _ rfl
  obtain ⟨made, free, -⟩ := newObject_spec numbered rfl
  have added := newInstance_spec made (i := ⟨none, .root, none, .null, some (.object (s.objects + 1))⟩) rfl
    (fun b hb => by cases hb; exact free) rfl
  exact added.1

namespace Arena

theorem newElement_mount (inside : 2 < nodes.length) :
    newElement (some ⟨2⟩) "div" [("id", "root")] none (s.arena nodes) =
      .ok (⟨nodes.length⟩, s.arena (nodes.modify 2 (·.holding [.element ⟨nodes.length⟩]) ++
        [ElementHead.node ⟨s.serial, "div", [("id", "root")], none, none⟩ (some ⟨2⟩) (leadingText none)])) :=
  @newElement_of_valid "div" _ none nodes s ⟨2⟩ (by decide) inside

theorem newObject_arena : newObject (s.arena nodes) =
    .ok (s.objects + 1, RenderState.arena { s with objects := s.objects + 1 } nodes) := rfl

theorem newInstance_top (grounded : RenderedInstance.Grounded s.instances) :
    newInstance none .root none .null (some (.object (s.objects + 1)))
      (RenderState.arena { s with objects := s.objects + 1 } nodes) =
        .ok (s.nextInstance, s.mounted.arena nodes) :=
  @newInstance_arena nodes { s.numbered [("id", "root")] with objects := s.objects + 1 } none .root none .null
    (some (.object (s.objects + 1))) grounded

/-- **The mount comes to stand in the body, and the app in the mount.** -/
theorem mountApp_arena {app : List FixtureNode} (serial : nodes.length = s.serial)
    (inside : 2 < nodes.length) (sound : s.Sound) : mountApp ⟨2⟩ app (s.arena nodes) =
      (Render.appNodes s.nextInstance app s.mounted).map fun drawn =>
        arranged ⟨2⟩ nodes ([frame s.serial "div" [("id", "root")] drawn.1], drawn.2) := by
  have inner := @appNodes_arena app ⟨nodes.length⟩ s.nextInstance s.mounted
    (nodes.modify 2 (·.holding [.element ⟨nodes.length⟩]) ++
      [ElementHead.node ⟨s.serial, "div", [("id", "root")], none, none⟩ (some ⟨2⟩) (leadingText none)])
    (by simp [serial]) (by simp) sound.mounted nextInstance_lt_adding
  rw [mountApp, run_bind_of_ok (newElement_mount inside), run_bind_of_ok newObject_arena,
    run_bind_of_ok (newInstance_top sound.grounded), inner]
  refine congrArg (fun f => Except.map f _) (funext fun drawn => ?_)
  exact @arranged_element nodes ⟨2⟩ ⟨s.serial, "div", [("id", "root")], none, none⟩ none drawn.1 drawn.2
    serial.symm

end Arena

end mount

namespace Fixture

variable (f : Fixture)

/-- Rendering into an arena, once the elements around all others have been made. -/
theorem arrange_eq : f.arrange .empty = (do
    Arena.markupNodes ⟨2⟩ f.markup
    mountApp ⟨2⟩ f.app
    Arena.portals ⟨2⟩ (FixtureNode.portalCountAll f.app) : Arranging Unit)
      (RenderState.arena ⟨3, [], [], 0, []⟩ frameNodes) := rfl

/-- **The two renderings of a fixture agree.** -/
theorem arrange_agree : Agree (f.renderDocument ⟨0, [], [], 0, []⟩) (f.arrange .empty) := by
  have outer := @markupNodes_arena f.markup ⟨2⟩ ⟨3, [], [], 0, []⟩ frameNodes rfl (by decide)
  rw [renderDocument_eq, arrange_eq]
  cases outside : Render.markupNodes f.markup ⟨3, [], [], 0, []⟩ with
  | error e =>
    rw [outside] at outer
    rw [run_bind_of_error outer]
    exact .error e
  | ok result =>
    obtain ⟨markup, s⟩ := result
    have numbered := (markupNodes_drawn outside).numbered
    have sound := (markupNodes_draws sound_frame outside).sound
    have length := @length_arranged frameNodes ⟨2⟩ markup
    have inner := @mountApp_arena _ s f.app (length.trans numbered.serial.symm)
      (by rw [length]; exact Nat.lt_of_lt_of_le (by decide) (Nat.le_add_right _ _)) sound
    rw [outside] at outer
    rw [run_bind_of_ok outer, ok_bind]
    dsimp only
    cases inside : Render.appNodes s.nextInstance f.app s.mounted with
    | error e =>
      rw [inside] at inner
      rw [run_bind_of_error inner]
      exact .error e
    | ok result =>
      obtain ⟨app, t⟩ := result
      have kept := keeps_rootDocument numbered (appNodes_drawn inside).numbered
        (appNodes_draws sound.mounted nextInstance_lt_adding inside).sound
      have whole := @arranged_append frameNodes ⟨2⟩ markup [frame s.serial "div" [("id", "root")] app] t
        (by decide)
      rw [inside] at inner
      replace inner := inner.trans (congrArg Except.ok whole)
      rw [run_bind_of_ok inner, ok_bind]
      exact portals_agree kept

end Fixture

end PageQuery

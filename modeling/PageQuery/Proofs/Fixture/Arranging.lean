/-
# Rendering into an arena makes the trees that rendering draws

Rendering draws trees and hands them on to what is around them; rendering into an arena puts each element
at the end of a list and at once into its parent. Both number elements as they are made, so what is drawn
in a state is, in the arena of that state, a row of new elements behind the others and more content in the
parent. This is told as an equation between the two computations (`Arena.appNodes_arena`), for results and
for errors alike: each side goes through the same steps.

Key definitions: `ElementTree.item`, `ElementHead.node`, `ElementTree.arenaNodes`, `RenderState.arena`,
`Render.arranged`.
Key theorems: `Arena.markupNodes_arena`, `Arena.appNodes_arena`.
-/
import PageQuery.Proofs.Fixture.Drawing
import PageQuery.Proofs.Fixture.Rows

namespace PageQuery

/-! ### Trees in an arena -/

namespace ElementTree

/-- What a tree is in its parent, where elements are known by when they were made. -/
def item : ElementTree → ContentItem NodeId
  | .text s => .text s
  | .element head _ => .element ⟨head.serial⟩

end ElementTree

/-- An element with its parent and its content. -/
def ElementHead.node (head : ElementHead) (parent? : Option NodeId) (content : List ElementTree) :
    HostNode :=
  ⟨head.tag, head.attributes, content.map ElementTree.item, parent?, head.rect?, head.host?⟩

namespace ElementTree

mutual

/-- The elements of a tree in document order. -/
def arenaNodes (parent? : Option NodeId) : ElementTree → List HostNode
  | .text _ => []
  | .element head content =>
    head.node parent? content :: arenaNodesAll (some ⟨head.serial⟩) content

def arenaNodesAll (parent? : Option NodeId) : List ElementTree → List HostNode
  | [] => []
  | t :: rest => arenaNodes parent? t ++ arenaNodesAll parent? rest

end

@[simp] theorem arenaNodesAll_append (parent? : Option NodeId) (first second : List ElementTree) :
    arenaNodesAll parent? (first ++ second) =
      arenaNodesAll parent? first ++ arenaNodesAll parent? second := by
  induction first with
  | nil => rfl
  | cons t rest ih => rw [List.cons_append, arenaNodesAll, arenaNodesAll, ih, List.append_assoc]

@[simp] theorem arenaNodesAll_leadingText (parent? : Option NodeId) (text? : Option String) :
    arenaNodesAll parent? (Render.leadingText text?) = [] := by
  cases text? <;> rfl

mutual

@[simp] theorem length_arenaNodes (parent? : Option NodeId) : (t : ElementTree) →
    (arenaNodes parent? t).length = size t
  | .text _ => rfl
  | .element head content => by
    rw [arenaNodes, size, List.length_cons, length_arenaNodesAll (some ⟨head.serial⟩) content,
      Nat.add_comm]

@[simp] theorem length_arenaNodesAll (parent? : Option NodeId) : (ts : List ElementTree) →
    (arenaNodesAll parent? ts).length = sizeAll ts
  | [] => rfl
  | t :: rest => by
    rw [arenaNodesAll, sizeAll, List.length_append, length_arenaNodes parent? t,
      length_arenaNodesAll parent? rest]

end

end ElementTree

open ElementTree Render RenderState

/-! ### States -/

/-- The arena of a state with these elements. -/
def RenderState.arena (s : RenderState) (nodes : List HostNode) : Arena :=
  ⟨nodes, s.instances.map RenderedInstance.record, RenderedInstance.rows s.instances, s.objects,
    s.pending⟩

/-- The arena after trees were drawn into a parent. -/
def Render.arranged (parent : NodeId) (nodes : List HostNode) (drawn : List ElementTree × RenderState) :
    Unit × Arena :=
  ((), drawn.2.arena (nodes.modify parent.index (·.holding (drawn.1.map item)) ++
    arenaNodesAll (some parent) drawn.1))

section nodes

variable {nodes : List HostNode}

@[simp] theorem HostNode.holding_nil (node : HostNode) : node.holding [] = node := by
  rw [HostNode.holding, List.append_nil]

@[simp] theorem HostNode.holding_holding (node : HostNode) (first second : List (ContentItem NodeId)) :
    (node.holding first).holding second = node.holding (first ++ second) := by
  rw [HostNode.holding, HostNode.holding, HostNode.holding, List.append_assoc]

theorem modify_append_left {α : Type} {change : α → α} : ∀ {l r : List α} {n : Nat}, n < l.length →
    (l ++ r).modify n change = l.modify n change ++ r
  | _ :: _, _, 0, _ => rfl
  | a :: _, _, _ + 1, inside => congrArg (a :: ·) (modify_append_left (Nat.lt_of_succ_lt_succ inside))

theorem modify_concat {α : Type} {change : α → α} (a : α) : ∀ l : List α,
    (l ++ [a]).modify l.length change = l ++ [change a]
  | [] => rfl
  | b :: l => congrArg (b :: ·) (modify_concat a l)

/-- The elements after trees were drawn into a parent. -/
@[simp] theorem length_arranged {parent : NodeId} {trees : List ElementTree} :
    (nodes.modify parent.index (·.holding (trees.map item)) ++ arenaNodesAll (some parent) trees).length =
      nodes.length + sizeAll trees := by
  simp

@[simp] theorem arranged_nil {parent : NodeId} {s : RenderState} :
    arranged parent nodes ([], s) = ((), s.arena nodes) := by
  have same : nodes.modify parent.index (·.holding []) = nodes := by
    rw [show (fun node : HostNode => node.holding []) = id from funext HostNode.holding_nil, List.modify_id]
  rw [arranged, List.map_nil, same, arenaNodesAll, List.append_nil]

/-- One more list of trees is drawn into the parent. -/
theorem arranged_append {parent : NodeId} {trees others : List ElementTree} {t : RenderState}
    (inside : parent.index < nodes.length) :
    arranged parent (nodes.modify parent.index (·.holding (trees.map item)) ++
      arenaNodesAll (some parent) trees) (others, t) = arranged parent nodes (trees ++ others, t) := by
  have both : (fun node : HostNode => node.holding (others.map item)) ∘
      (fun node : HostNode => node.holding (trees.map item)) =
        fun node : HostNode => node.holding ((trees ++ others).map item) := by
    funext node
    rw [Function.comp_apply, HostNode.holding_holding, List.map_append]
  rw [arranged, arranged, modify_append_left (by rwa [List.length_modify]), List.modify_modify_eq, both,
    arenaNodesAll_append, List.append_assoc]

/-- An element is drawn into its parent when it stands there, and its content is drawn into it. -/
theorem arranged_element {parent : NodeId} {head : ElementHead} {text? : Option String}
    {content : List ElementTree} {t : RenderState} (numbered : head.serial = nodes.length) :
    arranged ⟨nodes.length⟩ (nodes.modify parent.index (·.holding [.element ⟨nodes.length⟩]) ++
      [head.node (some parent) (leadingText text?)]) (content, t) =
        arranged parent nodes ([.element head (leadingText text? ++ content)], t) := by
  have whole : (head.node (some parent) (leadingText text?)).holding (content.map item) =
      head.node (some parent) (leadingText text? ++ content) := by
    rw [ElementHead.node, ElementHead.node, List.map_append]
    rfl
  have length : (nodes.modify parent.index (·.holding [.element ⟨nodes.length⟩])).length = nodes.length :=
    List.length_modify ..
  have last := @modify_concat _ (·.holding (content.map item)) (head.node (some parent) (leadingText text?))
    (nodes.modify parent.index (·.holding [.element ⟨nodes.length⟩]))
  rw [length, whole] at last
  rw [arranged, arranged, last, List.append_assoc, List.map_singleton, item, arenaNodesAll, arenaNodesAll,
    arenaNodes, arenaNodesAll_append, arenaNodesAll_leadingText, numbered]
  simp only [List.append_nil, List.nil_append, List.cons_append]

end nodes

/-! ### Sound states -/

section sound

variable {s : RenderState} {owner : InstanceId}

theorem RenderState.Sound.grounded (sound : s.Sound) : RenderedInstance.Grounded s.instances := by
  intro y mem parent up
  obtain ⟨place, there⟩ := List.mem_iff_getElem?.mp mem
  have founded := sound.founded place y there
  rw [RenderedInstance.FoundedAt, Option.mem_def.mp up] at founded
  exact founded.trans (List.getElem?_eq_some_iff.mp there).1

theorem RenderState.Sound.hosting (sound : s.Sound) (earlier : owner.index < s.instances.length)
    {tag : String} {attributes : List (String × String)} : (s.hosting owner tag attributes).Sound := by
  obtain ⟨numbered, free, -⟩ := @newSerial_spec s _ sound attributes _ rfl
  have added := newInstance_spec numbered (i := s.nextHost owner tag) rfl
    (fun b hb => by cases hb; exact free) earlier
  exact added.1

theorem RenderState.Sound.placing (sound : s.Sound) (earlier : owner.index < s.instances.length)
    {name : String} {kind : ComponentKind} {displayName? : Option String} {props : Json} :
    (s.placing owner name kind displayName? props).Sound := by
  obtain ⟨backed, free, -, instances⟩ := componentBacking?_spec sound (componentBacking?_eq kind s)
  have added := newInstance_spec backed (i := s.nextComponent owner name kind displayName? props) rfl free
    (show owner.index < (s.backing kind).instances.length from instances ▸ earlier)
  exact added.1

theorem RenderState.nextInstance_lt_adding {i : RenderedInstance} :
    s.nextInstance.index < (s.adding i).instances.length := by
  rw [show (s.adding i).instances = s.instances ++ [i] from rfl, List.length_append]
  exact Nat.lt_succ_self _

end sound

/-! ### Steps one after another -/

section steps

variable {σ ε α β : Type} {m : StateT σ (Except ε) α} {next : α → StateT σ (Except ε) β} {s t : σ} {a : α}

theorem run_bind_of_ok (h : m s = .ok (a, t)) : (m >>= next) s = next a t := by
  show (m s).bind (fun r => next r.1 r.2) = _
  rw [h]
  rfl

theorem run_bind_of_error {e : ε} (h : m s = .error e) : (m >>= next) s = .error e := by
  show (m s).bind (fun r => next r.1 r.2) = _
  rw [h]
  rfl

theorem map_map_except {γ : Type} {r : Except ε α} {f : α → β} {g : β → γ} :
    (r.map f).map g = r.map fun a => g (f a) := by
  cases r <;> rfl

end steps

/-! ### Serials -/

@[simp] theorem ElementTree.sizeAll_append (first second : List ElementTree) :
    sizeAll (first ++ second) = sizeAll first + sizeAll second := by
  rw [← length_arenaNodesAll none, arenaNodesAll_append, List.length_append, length_arenaNodesAll,
    length_arenaNodesAll]

@[simp]
theorem ElementTree.sizeAll_leadingText (text? : Option String) : sizeAll (leadingText text?) = 0 := by
  cases text? <;> rfl

/-- What is drawn outside the app has been numbered. -/
theorem MarkupDrawn.serial {nodes : List FixtureNode} {s t : RenderState} {trees : List ElementTree}
    (drawn : MarkupDrawn nodes s trees t) : t.serial = s.serial + sizeAll trees := by
  induction drawn with
  | nothing => rfl
  | text _ ih => rw [ih, sizeAll, size, Nat.zero_add]
  | element _ _ inner outer =>
    rw [outer, inner, sizeAll, size, sizeAll_append, sizeAll_leadingText, numbered_serial]
    omega

/-- What is drawn of the app has been numbered. -/
theorem Drawn.serial {owner : InstanceId} {nodes : List FixtureNode} {s t : RenderState}
    {trees : List ElementTree} (drawn : Drawn owner nodes s trees t) :
    t.serial = s.serial + sizeAll trees := by
  induction drawn with
  | nothing => rfl
  | text _ ih => rw [ih, sizeAll, size, Nat.zero_add]
  | element _ _ inner outer =>
    rw [outer, inner, sizeAll, size, sizeAll_append, sizeAll_leadingText, hosting_serial]
    omega
  | component _ _ inner outer => rw [outer, inner, placing_serial, sizeAll_append, Nat.add_assoc]
  | portal _ ih => exact ih

/-! ### Nodes outside the app -/

namespace Render

theorem checkTag_of_valid {tag : String} {s : RenderState} (valid : isTagName tag.toList = true) :
    checkTag tag s = .ok ((), s) := by
  rw [checkTag, if_pos valid]
  rfl

theorem checkTag_of_invalid {tag : String} {s : RenderState} (invalid : ¬isTagName tag.toList = true) :
    checkTag tag s = .error (.invalidTag tag) := by
  rw [checkTag, if_neg invalid]
  rfl

variable {tag : String} {attributes : List (String × String)} {text? : Option String}
  {rect? : Option Rect} {children rest : List FixtureNode} {node : FixtureNode} {s : RenderState}
  {owner : InstanceId}

theorem markupNode_element (valid : isTagName tag.toList = true) :
    markupNode (.element tag attributes text? rect? children) s =
      (markupNodes children (s.numbered attributes)).map fun drawn =>
        ([.element (s.nextHead tag attributes rect? none) (leadingText text? ++ drawn.1)], drawn.2) := by
  rw [markupNode, run_bind_of_ok (checkTag_of_valid valid), run_bind_of_ok rfl]
  show (markupNodes children (s.numbered attributes)).bind _ = _
  cases markupNodes children (s.numbered attributes) <;> rfl

theorem appNode_element (valid : isTagName tag.toList = true) :
    appNode owner (.element tag attributes text? rect? children) s =
      (appNodes s.nextInstance children (s.hosting owner tag attributes)).map fun drawn =>
        ([.element (s.nextHead tag attributes rect? (some s.nextInstance))
          (leadingText text? ++ drawn.1)], drawn.2) := by
  rw [appNode, run_bind_of_ok (checkTag_of_valid valid), run_bind_of_ok rfl, run_bind_of_ok rfl]
  show (appNodes s.nextInstance children (s.hosting owner tag attributes)).bind _ = _
  cases appNodes s.nextInstance children (s.hosting owner tag attributes) <;> rfl

theorem appNode_component {name : String} {kind : ComponentKind} {displayName? : Option String}
    {props : Json} : appNode owner (.component name kind displayName? props children) s =
      appNodes s.nextInstance children (s.placing owner name kind displayName? props) := by
  rw [appNode, run_bind_of_ok (componentBacking?_eq kind s)]
  cases kind <;> rfl

theorem appNodes_cons : appNodes owner (node :: rest) s = (appNode owner node s).bind fun drawn =>
    (appNodes owner rest drawn.2).map fun others => (drawn.1 ++ others.1, others.2) := by
  rw [appNodes]
  show (appNode owner node s).bind _ = _
  refine congrArg (Except.bind _) (funext fun drawn => ?_)
  show (appNodes owner rest drawn.2).bind _ = _
  cases appNodes owner rest drawn.2 <;> rfl

theorem markupNodes_cons : markupNodes (node :: rest) s = (markupNode node s).bind fun drawn =>
    (markupNodes rest drawn.2).map fun others => (drawn.1 ++ others.1, others.2) := by
  rw [markupNodes]
  show (markupNode node s).bind _ = _
  refine congrArg (Except.bind _) (funext fun drawn => ?_)
  show (markupNodes rest drawn.2).bind _ = _
  cases markupNodes rest drawn.2 <;> rfl

end Render

namespace Arena

variable {tag : String} {attributes : List (String × String)} {text? : Option String}
  {rect? : Option Rect} {nodes : List HostNode} {s : RenderState}

theorem newElement_of_invalid {parent? : Option NodeId} {a : Arena}
    (invalid : ¬isTagName tag.toList = true) :
    newElement parent? tag attributes rect? a = .error (.invalidTag tag) := by
  rw [newElement, if_neg invalid]

/-- A new element stands behind all others and at the end of its parent. -/
theorem newElement_of_valid {parent : NodeId} (valid : isTagName tag.toList = true)
    (inside : parent.index < nodes.length) :
    newElement (some parent) tag attributes rect? (s.arena nodes) =
      .ok (⟨nodes.length⟩, s.arena (nodes.modify parent.index (·.holding [.element ⟨nodes.length⟩]) ++
        [⟨lowerTag tag, attributes, [], some parent, rect?, none⟩])) := by
  rw [newElement, if_pos valid]
  dsimp only
  rw [← modify_append_left inside]
  rfl

/-- The leading text of the last element. -/
theorem putLeading_arena {node : HostNode} : putLeading ⟨nodes.length⟩ text? (s.arena (nodes ++ [node])) =
    .ok ((), s.arena (nodes ++ [node.holding ((leadingText text?).map item)])) := by
  cases text? with
  | none =>
    show Except.ok ((), s.arena (nodes ++ [node])) = _
    rw [show (leadingText none).map item = [] from rfl, HostNode.holding_nil]
  | some x =>
    show Except.ok ((), s.arena ((nodes ++ [node]).modify nodes.length (·.holding [.text x]))) = _
    rw [modify_concat]
    rfl

/-- **One step after another.** If a step arranges what is drawn first and what follows arranges the rest
there, both arrange all of it. -/
theorem arranged_bind {parent : NodeId} {first rest : Arranging Unit}
    {drawn : Except FixtureError (List ElementTree × RenderState)}
    {others : RenderState → Except FixtureError (List ElementTree × RenderState)}
    (inside : parent.index < nodes.length)
    (arranges : first (s.arena nodes) = drawn.map (arranged parent nodes))
    (arrangesRest : ∀ trees t, drawn = .ok (trees, t) →
      let after := nodes.modify parent.index (·.holding (trees.map item)) ++ arenaNodesAll (some parent) trees
      rest (t.arena after) = (others t).map (arranged parent after)) :
    (first >>= fun _ => rest) (s.arena nodes) = (drawn.bind fun drawn =>
      (others drawn.2).map fun others => (drawn.1 ++ others.1, others.2)).map (arranged parent nodes) := by
  cases drawn with
  | error e =>
    rw [run_bind_of_error arranges]
    rfl
  | ok result =>
    obtain ⟨trees, t⟩ := result
    rw [run_bind_of_ok arranges, ok_bind, map_map_except]
    refine (arrangesRest trees t rfl).trans ?_
    exact congrArg (fun f => Except.map f _) (funext fun others => arranged_append inside)

mutual

theorem markupNode_arena : ∀ {node : FixtureNode} {parent : NodeId} {s : RenderState}
    {nodes : List HostNode}, nodes.length = s.serial → parent.index < nodes.length →
      markupNode parent node (s.arena nodes) = (Render.markupNode node s).map (arranged parent nodes)
  | .text x, parent, s, nodes, _, _ => by
    show Except.ok ((), s.arena (nodes.modify parent.index (·.holding [.text x]))) =
      .ok ((), s.arena (nodes.modify parent.index (·.holding [.text x]) ++ []))
    rw [List.append_nil]
  | .element tag attributes text? rect? children, parent, s, nodes, numbered, inside => by
    rw [markupNode]
    by_cases valid : isTagName tag.toList = true
    · have length : (nodes.modify parent.index (·.holding [.element ⟨nodes.length⟩])).length =
        nodes.length := List.length_modify ..
      have leading := @putLeading_arena text? (nodes.modify parent.index (·.holding [.element ⟨nodes.length⟩]))
        s ⟨lowerTag tag, attributes, [], some parent, rect?, none⟩
      rw [length] at leading
      rw [run_bind_of_ok (newElement_of_valid valid inside), run_bind_of_ok leading,
        markupNode_element valid, map_map_except]
      refine (@markupNodes_arena children ⟨nodes.length⟩ (s.numbered attributes) _ ?_ ?_).trans ?_
      · rw [List.length_append, length, numbered]
        rfl
      · rw [List.length_append, length]
        exact Nat.lt_succ_self _
      · refine congrArg (fun f => Except.map f _) (funext fun drawn => ?_)
        exact @arranged_element nodes parent (s.nextHead tag attributes rect? none) text? drawn.1 drawn.2
          numbered.symm
    · rw [run_bind_of_error (newElement_of_invalid valid), Render.markupNode,
        run_bind_of_error (checkTag_of_invalid valid)]
      rfl
  | .component .., _, _, _, _, _ => rfl
  | .portal .., _, _, _, _, _ => rfl

/-- **Outside the app, what is drawn comes to stand in the parent.** -/
theorem markupNodes_arena : ∀ {children : List FixtureNode} {parent : NodeId} {s : RenderState}
    {nodes : List HostNode}, nodes.length = s.serial → parent.index < nodes.length →
      markupNodes parent children (s.arena nodes) =
        (Render.markupNodes children s).map (arranged parent nodes)
  | [], parent, s, nodes, _, _ => by
    rw [Render.markupNodes, markupNodes]
    exact (congrArg Except.ok arranged_nil).symm
  | node :: rest, parent, s, nodes, numbered, inside => by
    rw [markupNodes, markupNodes_cons]
    refine arranged_bind inside (markupNode_arena numbered inside) fun trees t drawn => ?_
    have serial := (Render.markupNode_drawn drawn .nothing).serial
    rw [List.append_nil] at serial
    exact markupNodes_arena (by rw [length_arranged, numbered, serial]) (by rw [length_arranged]; omega)

end

/-! ### Nodes of the app -/

/-- A new instance comes to stand in its parent's row. -/
theorem newInstance_arena {parent? : Option InstanceId} {kind : InstanceKind} {name? : Option String}
    {props : Json} (backing? : Option RenderedBacking) (grounded : RenderedInstance.Grounded s.instances) :
    newInstance parent? kind name? props (backing?.map RenderedBacking.inArena) (s.arena nodes) =
      .ok (s.nextInstance, (s.adding ⟨parent?, kind, name?, props, backing?⟩).arena nodes) := by
  have rows := @RenderedInstance.rows_concat s.instances ⟨parent?, kind, name?, props, backing?⟩ grounded
  have records := @List.map_append _ _ RenderedInstance.record s.instances
    [⟨parent?, kind, name?, props, backing?⟩]
  have length : (s.instances.map RenderedInstance.record).length = s.instances.length := List.length_map _
  unfold newInstance RenderState.arena
  dsimp only [RenderState.adding]
  rw [rows, records, length]
  cases parent? <;> rfl

/-- The host of an element that was made last. -/
theorem newHost_arena {owner : InstanceId} {n : Nat} (numbered : n = s.serial)
    (grounded : RenderedInstance.Grounded s.instances) :
    newInstance (some owner) .host (some tag) .null (some (.node ⟨n⟩)) (s.arena nodes) =
      .ok (s.nextInstance, (s.hosting owner tag attributes).arena nodes) := by
  subst numbered
  exact newInstance_arena (s := s.numbered attributes) (some (.element s.serial)) grounded

/-- The host of the last element. -/
theorem alter_arena {node : HostNode} {host : InstanceId} :
    alter ⟨nodes.length⟩ (·.hosted host) (s.arena (nodes ++ [node])) =
      .ok ((), s.arena (nodes ++ [node.hosted host])) := by
  show Except.ok ((), s.arena ((nodes ++ [node]).modify nodes.length (·.hosted host))) = _
  rw [modify_concat]

theorem componentBacking?_arena (kind : ComponentKind) : componentBacking? kind (s.arena nodes) =
    .ok ((s.nextObject? kind).map RenderedBacking.inArena, (s.backing kind).arena nodes) := by
  cases kind <;> rfl

mutual

theorem appNode_arena : ∀ {node : FixtureNode} {parent : NodeId} {owner : InstanceId} {s : RenderState}
    {nodes : List HostNode}, nodes.length = s.serial → parent.index < nodes.length → s.Sound →
      owner.index < s.instances.length → appNode parent owner node (s.arena nodes) =
        (Render.appNode owner node s).map (arranged parent nodes)
  | .text x, parent, owner, s, nodes, _, _, _, _ => by
    show Except.ok ((), s.arena (nodes.modify parent.index (·.holding [.text x]))) =
      .ok ((), s.arena (nodes.modify parent.index (·.holding [.text x]) ++ []))
    rw [List.append_nil]
  | .element tag attributes text? rect? children, parent, owner, s, nodes, numbered, inside, sound, earlier => by
    rw [appNode]
    by_cases valid : isTagName tag.toList = true
    · have length : (nodes.modify parent.index (·.holding [.element ⟨nodes.length⟩])).length =
        nodes.length := List.length_modify ..
      have host := @newHost_arena tag attributes
        (nodes.modify parent.index (·.holding [.element ⟨nodes.length⟩]) ++ [⟨lowerTag tag, attributes, [], some parent, rect?, none⟩]) s owner _ numbered sound.grounded
      have hosted := @alter_arena (nodes.modify parent.index (·.holding [.element ⟨nodes.length⟩]))
        (s.hosting owner tag attributes) ⟨lowerTag tag, attributes, [], some parent, rect?, none⟩
          s.nextInstance
      have leading := @putLeading_arena text? (nodes.modify parent.index (·.holding [.element ⟨nodes.length⟩]))
        (s.hosting owner tag attributes)
          (HostNode.hosted ⟨lowerTag tag, attributes, [], some parent, rect?, none⟩ s.nextInstance)
      rw [length] at hosted leading
      rw [run_bind_of_ok (newElement_of_valid valid inside), run_bind_of_ok host, run_bind_of_ok hosted,
        run_bind_of_ok leading, appNode_element valid, map_map_except]
      refine (@appNodes_arena children ⟨nodes.length⟩ s.nextInstance (s.hosting owner tag attributes) _
        ?_ ?_ (sound.hosting earlier) ?_).trans ?_
      · rw [List.length_append, length, numbered]
        rfl
      · rw [List.length_append, length]
        exact Nat.lt_succ_self _
      · exact nextInstance_lt_adding
      · refine congrArg (fun f => Except.map f _) (funext fun drawn => ?_)
        exact @arranged_element nodes parent (s.nextHead tag attributes rect? (some s.nextInstance)) text?
          drawn.1 drawn.2 numbered.symm
    · rw [run_bind_of_error (newElement_of_invalid valid), Render.appNode,
        run_bind_of_error (checkTag_of_invalid valid)]
      rfl
  | .component name kind displayName? props children, parent, owner, s, nodes, numbered, inside, sound,
      earlier => by
    have grounded : RenderedInstance.Grounded (s.backing kind).instances := by
      rw [backing_instances]
      exact sound.grounded
    have placed := @newInstance_arena nodes (s.backing kind) (some owner) kind.toInstanceKind
      (componentName? name kind displayName?) (propsOrNone props) (s.nextObject? kind) grounded
    have same : (s.backing kind).nextInstance = s.nextInstance := by
      rw [nextInstance, backing_instances]
      rfl
    rw [same] at placed
    rw [appNode, run_bind_of_ok (componentBacking?_arena kind), run_bind_of_ok placed, appNode_component]
    refine @appNodes_arena children parent s.nextInstance (s.placing owner name kind displayName? props) nodes
      ?_ inside (sound.placing earlier) ?_
    · rw [numbered]
      exact backing_serial.symm
    · rw [placing_instances, List.length_append]
      exact Nat.lt_succ_self _
  | .portal target children, parent, owner, s, nodes, _, _, sound, _ => by
    have made := @newInstance_arena nodes s (some owner) .portal none .null none sound.grounded
    rw [Option.map_none] at made
    rw [appNode, run_bind_of_ok made]
    exact (congrArg Except.ok (@arranged_nil nodes parent (s.deferring owner target children))).symm

/-- **In the app, what is drawn below an instance comes to stand in the parent.** -/
theorem appNodes_arena : ∀ {children : List FixtureNode} {parent : NodeId} {owner : InstanceId}
    {s : RenderState} {nodes : List HostNode}, nodes.length = s.serial → parent.index < nodes.length →
      s.Sound → owner.index < s.instances.length → appNodes parent owner children (s.arena nodes) =
        (Render.appNodes owner children s).map (arranged parent nodes)
  | [], parent, owner, s, nodes, _, _, _, _ => by
    rw [Render.appNodes, appNodes]
    exact (congrArg Except.ok arranged_nil).symm
  | node :: rest, parent, owner, s, nodes, numbered, inside, sound, earlier => by
    rw [appNodes, appNodes_cons]
    refine arranged_bind inside (appNode_arena numbered inside sound earlier) fun trees t drawn => ?_
    have keeps := Render.appNode_draws sound earlier drawn
    have serial := (Render.appNode_drawn drawn .nothing).serial
    rw [List.append_nil] at serial
    exact appNodes_arena (by rw [length_arranged, numbered, serial]) (by rw [length_arranged]; omega)
      keeps.sound (earlier.trans_le keeps.length_le)

end

end Arena

end PageQuery

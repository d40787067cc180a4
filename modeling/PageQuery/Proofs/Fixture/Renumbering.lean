/-
# Putting an arena into document order

The walk from the first element takes the elements of a stored tree one after another, each before its
content: what lies below them on the stack is reached when the tree has been gone through. An order
without repetition is turned into a table of places by writing each place once, and moving the elements
takes each from a slot that is still full. So an arena that stores a document gives its elements in
document order, with the numbers that the document's tree gives them, and everything made is in it.

Key definitions: `FixturePage.hostNode`, `FixturePage.record`, `FixturePage.rendered`.
Key theorems: `Arena.walk_storedAll`, `Arena.placeIn_newPlaces`, `Arena.moved_eq`, `Arena.Keeps.walk_eq`,
`Arena.Keeps.walk_perm`, `Arena.Keeps.finish_eq`, `Fixture.rendered_eq`.
-/
import PageQuery.Proofs.Fixture.Declarations
import PageQuery.Proofs.Fixture.Stored

namespace PageQuery

open ElementTree

namespace ElementTree

/-- The elements right in some content. -/
def tops (ts : List ElementTree) : List NodeId := (ts.map item).filterMap (·.element?)

/-- The elements of trees in document order, by when they were made. -/
def places (heads : List ElementHead) : List NodeId := heads.map fun head => ⟨head.serial⟩

theorem nodup_places {heads : List ElementHead} (distinct : (heads.map (·.serial)).Nodup) :
    (places heads).Nodup := by
  have images := distinct.map (f := NodeId.mk) fun _ _ same => NodeId.mk.inj same
  rwa [List.map_map] at images

end ElementTree

namespace Arena

/-! ### The walk -/

@[simp] theorem pushAll_reverse (stack elements : List NodeId) :
    pushAll stack elements.reverse = elements ++ stack := by
  rw [pushAll, List.foldl_reverse]
  exact List.foldr_cons_eq_append'

@[simp] theorem walk_nil (nodes : List HostNode) (count : Nat) : walk nodes count [] = [] := by
  cases count <;> rfl

variable {nodes : List HostNode}

mutual

/-- The walk goes through a tree on top of the stack, an element before its content. -/
theorem walk_stored : ∀ {t : ElementTree} {parent? : Option NodeId} {count : Nat} {stack : List NodeId},
    Stored nodes parent? t →
      walk nodes (size t + count) (tops [t] ++ stack) = places (heads t) ++ walk nodes count stack
  | .text _, _, count, _, _ => by
    rw [size, Nat.zero_add]
    rfl
  | .element head content, parent?, count, stack, ⟨here, inner⟩ => by
    have children : childrenAt nodes ⟨head.serial⟩ = tops content := by
      rw [childrenAt, here]
      rfl
    have later := @walk_storedAll content _ count stack inner
    rw [size, Nat.add_comm 1, Nat.add_right_comm]
    show _ :: walk nodes _ (pushAll stack (childrenAt nodes ⟨head.serial⟩).reverse) = _
    rw [pushAll_reverse, children, later]
    rfl

/-- **The walk goes through trees on top of the stack and then on to what lies below them.** -/
theorem walk_storedAll : ∀ {ts : List ElementTree} {parent? : Option NodeId} {count : Nat}
    {stack : List NodeId}, StoredAll nodes parent? ts →
      walk nodes (sizeAll ts + count) (tops ts ++ stack) = places (headsAll ts) ++ walk nodes count stack
  | [], _, count, _, _ => by
    rw [sizeAll, Nat.zero_add]
    rfl
  | t :: rest, parent?, count, stack, ⟨first, others⟩ => by
    have split : tops (t :: rest) = tops [t] ++ tops rest := by
      rw [tops, ← List.singleton_append, List.map_append, List.filterMap_append]
      rfl
    rw [sizeAll, Nat.add_assoc, split, List.append_assoc, walk_stored first, walk_storedAll others,
      ← List.append_assoc, headsAll]
    exact congrArg (· ++ _) List.map_append.symm

end

/-! ### The table of places -/

/-- Each place of an order without repetition is written once. -/
theorem getElem?_writePlaces {k : Nat} : ∀ {order : List NodeId} {start : Nat} {table : List NodeId},
    order.Nodup → ((order.zipIdx start).foldl (fun places entry => places.set entry.1.index ⟨entry.2⟩)
      table)[k]? = (table[k]?).map fun old =>
        if (⟨k⟩ : NodeId) ∈ order then ⟨start + order.idxOf ⟨k⟩⟩ else old
  | [], _, table, _ => by simp
  | n :: order, start, table, once => by
    obtain ⟨new, once⟩ := List.nodup_cons.mp once
    have later := @getElem?_writePlaces k order (start + 1) (table.set n.index ⟨start⟩) once
    rw [List.zipIdx_cons, List.foldl_cons, later, List.getElem?_set]
    by_cases here : n = ⟨k⟩
    · subst here
      rw [if_pos rfl]
      cases inside : table[k]? with
      | none => simp [List.getElem?_eq_none_iff.mp inside]
      | some old => simp [(List.getElem?_eq_some_iff.mp inside).1, new]
    · have apart : n.index ≠ k := fun same => here (congrArg NodeId.mk same)
      rw [if_neg apart]
      refine congrArg (fun change => (table[k]?).map change) (funext fun old => ?_)
      by_cases mem : (⟨k⟩ : NodeId) ∈ order
      · rw [if_pos mem, if_pos (List.mem_cons_of_mem _ mem), List.idxOf_cons_ne _ here]
        congr 1
        omega
      · rw [if_neg mem, if_neg fun h => (List.mem_cons.mp h).elim (fun same => here same.symm) mem]

/-- **The table has the place of an element in the order.** -/
theorem placeIn_newPlaces {order : List NodeId} (once : order.Nodup) {n : NodeId} {count : Nat}
    (mem : n ∈ order) (inside : n.index < count) :
    placeIn (newPlaces count order) n = ⟨order.idxOf n⟩ := by
  rw [placeIn, newPlaces, getElem?_writePlaces once, List.getElem?_replicate, if_pos inside,
    Option.map_some, if_pos mem, Option.getD_some, Nat.zero_add]

/-! ### Moving -/

/-- Each element is taken from its slot once, so every one in the order is there. -/
theorem moved_eq {places : List NodeId} : ∀ {order : List NodeId} {slots : List (Option HostNode)},
    order.Nodup → (∀ n ∈ order, (slots[n.index]?).join = nodes[n.index]?) →
      moved places order slots =
        (order.filterMap fun n => nodes[n.index]?).map (·.relocated (placeIn places))
  | [], _, _, _ => rfl
  | n :: order, slots, once, full => by
    obtain ⟨new, once⟩ := List.nodup_cons.mp once
    obtain ⟨here, others⟩ := List.forall_mem_cons.mp full
    have rest : ∀ m ∈ order, ((slots.set n.index none)[m.index]?).join = nodes[m.index]? := by
      intro m mem
      have apart : n.index ≠ m.index := by
        intro same
        obtain rfl : n = m := congrArg NodeId.mk same
        exact new mem
      rw [List.getElem?_set_ne apart]
      exact others m mem
    rw [moved, List.filterMap_cons, here]
    cases nodes[n.index]? with
    | none => exact moved_eq once others
    | some node => exact congrArg (_ :: ·) (moved_eq once rest)

mutual

/-- The elements of a stored tree, looked up one after another. -/
theorem filterMap_stored : ∀ {t : ElementTree} {parent? : Option NodeId}, Stored nodes parent? t →
    ((places (heads t)).filterMap fun n => nodes[n.index]?) = arenaNodes parent? t
  | .text _, _, _ => rfl
  | .element head content, parent?, ⟨here, inner⟩ => by
    have rest := filterMap_storedAll inner
    show ((⟨head.serial⟩ :: places (headsAll content)).filterMap fun n => nodes[n.index]?) = _
    rw [List.filterMap_cons, here, rest]
    rfl

theorem filterMap_storedAll : ∀ {ts : List ElementTree} {parent? : Option NodeId},
    StoredAll nodes parent? ts →
      ((places (headsAll ts)).filterMap fun n => nodes[n.index]?) = arenaNodesAll parent? ts
  | [], _, _ => rfl
  | t :: rest, parent?, ⟨first, others⟩ => by
    rw [headsAll, places, List.map_append, List.filterMap_append, arenaNodesAll]
    exact congr (congrArg _ (filterMap_stored first)) (filterMap_storedAll others)

end

/-! ### Stored documents -/

variable {document : ElementTree} {s : RenderState} {count : Nat}

/-- Every element that was made stands in the document, once. -/
theorem Keeps.serials_perm (keeps : Keeps nodes document s) (stands : Render.Stands document s)
    (shows : Render.Shows document s) :
    ((heads document).map (·.serial)).Perm (List.range nodes.length) := by
  refine (List.perm_ext_iff_of_nodup stands.tallies.numbers.distinct List.nodup_range).mpr fun n => ?_
  rw [List.mem_map, List.mem_range, keeps.length]
  constructor
  · rintro ⟨head, mem, rfl⟩
    exact stands.tallies.numbers.made head mem
  · exact shows.drawn n

theorem Keeps.size_eq (keeps : Keeps nodes document s) (stands : Render.Stands document s)
    (shows : Render.Shows document s) : size document = nodes.length := by
  have length := (keeps.serials_perm stands shows).length_eq
  rwa [List.length_map, List.length_range, length_heads] at length

/-- **The walk from the first element goes through the document.** As many steps as there are elements are
enough; more of them add nothing, as the stack is empty by then. -/
theorem Keeps.walk_eq (keeps : Keeps nodes document s) (stands : Render.Stands document s)
    (shows : Render.Shows document s) (enough : nodes.length ≤ count) :
    walk nodes count [⟨0⟩] = places (heads document) := by
  obtain ⟨more, rfl⟩ := Nat.exists_eq_add_of_le enough
  obtain ⟨content, rfl⟩ := stands.top
  have whole := @walk_stored nodes _ none more [] keeps.stored
  rw [keeps.size_eq stands shows, walk_nil, List.append_nil, List.append_nil] at whole
  exact whole

/-- **The walk visits every element once.** -/
theorem Keeps.walk_perm (keeps : Keeps nodes document s) (stands : Render.Stands document s)
    (shows : Render.Shows document s) :
    (walk nodes nodes.length [⟨0⟩]).Perm ((List.range nodes.length).map NodeId.mk) := by
  have perm := (keeps.serials_perm stands shows).map NodeId.mk
  rw [List.map_map] at perm
  rw [keeps.walk_eq stands shows (Nat.le_refl _)]
  exact perm

end Arena

/-! ### The page of a rendering -/

namespace FixturePage

variable (p : FixturePage)

/-- An element of the page as a node of an arena. -/
def hostNode (e : PlacedElement) : HostNode :=
  ⟨e.head.tag, e.head.attributes, e.content.map p.contentItem, e.parent?.map NodeId.mk, e.head.rect?,
    e.head.host?⟩

/-- The instance at a place of the page with its links. -/
def record (place : Nat) (i : RenderedInstance) : InstanceRecord :=
  ⟨i.parent?, (RenderedInstance.nextSibling? p.instances place).map InstanceId.mk, i.kind, i.name?, i.props,
    i.backing?.map p.backingOf⟩

/-- The nodes and instances of the page. -/
def rendered : Rendered := ⟨p.elements.toList.map p.hostNode, p.instances.toList.mapIdx p.record⟩

end FixturePage

namespace Rendering

variable {r : Rendering}

/-- The place of an element in the document, by when it was made. -/
def placeOf (r : Rendering) (n : NodeId) : NodeId := ⟨r.page.placeOf n.index⟩

mutual

/-- Told the places in the document, the elements of a tree are nodes of the page. -/
theorem map_relocated_arenaNodes : ∀ {t : ElementTree} {made? : Option NodeId} {parent? : Option Nat}
    {number : Nat}, (heads t).map (fun head => r.page.placeOf head.serial) = List.range' number (size t) →
      made?.map r.placeOf = parent?.map NodeId.mk →
        (arenaNodes made? t).map (·.relocated r.placeOf) = (placed parent? number t).map r.page.hostNode
  | .text _, _, _, _, _, _ => rfl
  | .element head content, made?, parent?, number, numbered, above => by
    rw [heads, size, Nat.add_comm, List.range'_succ, List.map_cons] at numbered
    obtain ⟨here, later⟩ := List.cons.inj numbered
    have own : (head.node made? content).relocated r.placeOf = r.page.hostNode ⟨parent?, head, content⟩ := by
      have items : (content.map item).map (·.map r.placeOf) = content.map r.page.contentItem := by
        rw [List.map_map]
        refine List.map_congr_left fun t _ => ?_
        cases t <;> rfl
      rw [HostNode.relocated, FixturePage.hostNode, ← above, ← items]
      rfl
    rw [arenaNodes, placed, List.map_cons, List.map_cons, own]
    refine congrArg (_ :: ·) (map_relocated_arenaNodesAll later ?_)
    rw [Option.map_some, Option.map_some, placeOf, here]

theorem map_relocated_arenaNodesAll : ∀ {ts : List ElementTree} {made? : Option NodeId}
    {parent? : Option Nat} {number : Nat},
      (headsAll ts).map (fun head => r.page.placeOf head.serial) = List.range' number (sizeAll ts) →
        made?.map r.placeOf = parent?.map NodeId.mk →
          (arenaNodesAll made? ts).map (·.relocated r.placeOf) =
            (placedAll parent? number ts).map r.page.hostNode
  | [], _, _, _, _, _ => rfl
  | t :: rest, made?, parent?, number, numbered, above => by
    rw [headsAll, sizeAll, List.map_append, ← List.range'_append_1] at numbered
    obtain ⟨first, later⟩ := List.append_inj numbered
      (by rw [List.length_map, List.length_range', length_heads])
    rw [arenaNodesAll, placedAll, List.map_append, List.map_append, map_relocated_arenaNodes first above,
      map_relocated_arenaNodesAll later above]

end

/-- The elements of the document stand one after another. -/
theorem map_placeOf_heads (distinct : ((heads r.document).map (·.serial)).Nodup) :
    (heads r.document).map (fun head => r.page.placeOf head.serial) =
      List.range' 0 (size r.document) := by
  refine List.ext_getElem? fun n => ?_
  have length : r.page.elements.size = size r.document := by
    rw [← length_placed none 0]
    exact List.size_toArray
  rw [← map_head_placed none 0, List.map_map, List.getElem?_map, ← getElem?_elements]
  cases here : r.page.elements[n]? with
  | none =>
    have outside := Array.getElem?_eq_none_iff.mp here
    rw [List.getElem?_eq_none (by rw [List.length_range']; omega)]
    rfl
  | some e =>
    obtain ⟨inside, -⟩ := Array.getElem?_eq_some_iff.mp here
    rw [List.getElem?_range' (by omega), Nat.one_mul, Nat.zero_add]
    exact congrArg some (placeOf_serial distinct here)

/-- **The table has the places of the document.** What has not been made has the place of the first element
in both. -/
theorem placeIn_eq_placeOf {count : Nat} (perm : ((heads r.document).map (·.serial)).Perm (List.range count)) :
    Arena.placeIn (Arena.newPlaces count (places (heads r.document))) = r.placeOf := by
  have distinct := perm.nodup_iff.mpr List.nodup_range
  have once := nodup_places distinct
  have mem_iff : ∀ n : NodeId, n ∈ places (heads r.document) ↔ n.index < count := by
    intro n
    rw [← List.mem_range, ← perm.mem_iff, places, List.mem_map, List.mem_map]
    exact exists_congr fun head => and_congr_right fun _ => ⟨congrArg NodeId.index, congrArg NodeId.mk⟩
  funext n
  by_cases made : n.index < count
  · have mem := (mem_iff n).mpr made
    rw [Arena.placeIn_newPlaces once mem made]
    obtain ⟨m, here⟩ := List.mem_iff_getElem?.mp mem
    obtain ⟨inside, same⟩ := List.getElem?_eq_some_iff.mp here
    have place : (places (heads r.document)).idxOf n = m := same ▸ once.idxOf_getElem m inside
    rw [places, ← map_head_placed none 0, List.map_map, List.getElem?_map] at here
    obtain ⟨e, there, rfl⟩ := Option.map_eq_some_iff.mp here
    rw [place, placeOf]
    exact congrArg NodeId.mk (placeOf_serial distinct (getElem?_elements.trans there)).symm
  · have none : r.page.placeOf n.index = 0 := by
      rw [FixturePage.placeOf, Array.findIdx?_eq_none_iff.mpr]
      · rfl
      · intro e mem
        obtain ⟨m, here⟩ := Array.mem_iff_getElem?.mp mem
        rw [getElem?_elements] at here
        have drawn : e.head ∈ heads r.document :=
          map_head_placed none 0 r.document ▸ List.mem_map_of_mem (List.mem_of_getElem? here)
        refine beq_eq_false_iff_ne.mpr fun same => made ?_
        rw [← same]
        exact List.mem_range.mp (perm.mem_iff.mp (List.mem_map_of_mem drawn))
    have length : (Arena.newPlaces count (places (heads r.document)))[n.index]? = .none := by
      rw [Arena.newPlaces, Arena.getElem?_writePlaces once, List.getElem?_replicate, if_neg made]
      rfl
    rw [Arena.placeIn, length, placeOf, none]
    rfl

/-- What instances are once they are linked and told the places in the document. -/
theorem map_relocated_linked (grounded : RenderedInstance.Grounded r.instances) :
    (Arena.linked (r.instances.map RenderedInstance.record) (RenderedInstance.rows r.instances)).map
      (·.relocated r.placeOf) = r.page.instances.toList.mapIdx r.page.record := by
  refine List.ext_getElem? fun n => ?_
  rw [List.getElem?_map, RenderedInstance.getElem?_linked grounded, List.getElem?_mapIdx, Option.map_map]
  refine congrArg (fun change => (r.instances[n]?).map change) (funext fun i => ?_)
  obtain ⟨parent?, kind, name?, props, backing?⟩ := i
  refine congrArg (InstanceRecord.mk _ _ _ _ _) ?_
  rcases backing? with _ | _ | _
  · rfl
  · rfl
  · rfl

end Rendering

open Arena

/-- **An arena that stores a document is finished as the page of that document.** -/
theorem Arena.Keeps.finish_eq {nodes : List HostNode} {document : ElementTree} {s : RenderState}
    (keeps : Keeps nodes document s) (stands : Render.Stands document s)
    (shows : Render.Shows document s) :
    (s.arena nodes).finish = (Rendering.mk document s.instances).page.rendered := by
  have perm := keeps.serials_perm stands shows
  have distinct := stands.tallies.numbers.distinct
  have order := keeps.walk_eq stands shows (Nat.le_refl _)
  have table := @Rendering.placeIn_eq_placeOf ⟨document, s.instances⟩ _ perm
  have full : ∀ n ∈ places (heads document), ((nodes.map some)[n.index]?).join = nodes[n.index]? := by
    intro n _
    rw [List.getElem?_map]
    cases nodes[n.index]? <;> rfl
  have once := nodup_places distinct
  have elements := @Rendering.map_relocated_arenaNodes ⟨document, s.instances⟩ document none none 0
    (Rendering.map_placeOf_heads distinct) rfl
  have instances := @Rendering.map_relocated_linked ⟨document, s.instances⟩ keeps.sound.grounded
  unfold finish inDocumentOrder RenderState.arena
  dsimp only
  rw [order, table, moved_eq once full, filterMap_stored keeps.stored, table, elements, instances]
  rfl

/-- **Rendering into an arena gives the page of the tree that rendering draws.** For every fixture, and if it
is no page, for the same reason. -/
theorem Fixture.rendered_eq (f : Fixture) : f.rendered = f.render.map fun r => r.page.rendered := by
  have agree := f.arrange_agree
  unfold rendered render
  cases drawn : f.renderDocument ⟨0, [], [], 0, []⟩ with
  | error e =>
    rw [drawn] at agree
    generalize f.arrange .empty = arranged at agree
    cases agree
    rfl
  | ok result =>
    obtain ⟨document, s⟩ := result
    rw [drawn] at agree
    generalize f.arrange .empty = arranged at agree
    cases agree with
    | ok keeps =>
      exact congrArg Except.ok (keeps.finish_eq (renderDocument_stands drawn) (renderDocument_shows drawn))

end PageQuery

/-
# Elements and their hosts

While a fixture is rendered, elements are told apart by their serials and refer to their hosts, and the
hosts refer back. What holds of the elements drawn so far is carried from node to node: no serial is
given twice and an id that is known is that of an element drawn before (`Numbers`), and elements and
hosts point at each other (`Hosts`). A portal puts its elements among those of an earlier target, which
changes their order but not which they are, so this goes on to hold.

On the page, where serials give way to numbers, the nodes are then a preorder numbering of one tree,
and nodes and hosts still point at each other.

Key definitions: `Numbers`, `Hosts`, `FixturePage.childNumbers`.
Key theorems: `ElementTree.heads_appendTo_perm_once`, `Drawn.tallies`, `Fixture.render_stands`,
`Rendering.inDocumentOrder`, `Rendering.host?_iff`.
-/
import PageQuery.Proofs.Fixture.Drawing
import PageQuery.Proofs.Fixture.Identity
import PageQuery.Proofs.Fixture.Numbering

namespace PageQuery

/-! ### Elements added to a tree -/

namespace ElementTree

section appending

open scoped List

variable {serial : Nat} {more : List ElementTree}

/-- The elements that come to stand in a tree when content is added to each of those. -/
def additions (serial : Nat) (more : List ElementTree) (heads : List ElementHead) : List ElementHead :=
  (heads.filter (·.serial = serial)).flatMap fun _ => headsAll more

theorem additions_append (first second : List ElementHead) :
    additions serial more (first ++ second) =
      additions serial more first ++ additions serial more second := by
  rw [additions, List.filter_append, List.flatMap_append]
  rfl

mutual

/-- What is added comes to stand in the tree as often as there are elements of that serial. -/
theorem heads_appendTo_perm : ∀ t : ElementTree,
    heads (appendTo serial more t) ~ heads t ++ additions serial more (heads t)
  | .text _ => .refl _
  | .element head content => by
    have inner := headsAll_appendToAll_perm content
    rw [appendTo, heads, heads]
    by_cases here : head.serial = serial
    · have one : additions serial more (head :: headsAll content) =
          headsAll more ++ additions serial more (headsAll content) := by
        rw [additions, List.filter_cons_of_pos (by simpa using here)]
        rfl
      rw [if_pos here, headsAll_append, one, List.cons_append]
      refine List.Perm.cons head ?_
      calc headsAll (appendToAll serial more content) ++ headsAll more
          ~ (headsAll content ++ additions serial more (headsAll content)) ++ headsAll more :=
            inner.append_right _
        _ = headsAll content ++ (additions serial more (headsAll content) ++ headsAll more) :=
            List.append_assoc ..
        _ ~ headsAll content ++ (headsAll more ++ additions serial more (headsAll content)) :=
            List.perm_append_comm.append_left _
    · have none : additions serial more (head :: headsAll content) =
          additions serial more (headsAll content) := by
        rw [additions, List.filter_cons_of_neg (by simpa using here)]
        rfl
      rw [if_neg here, none, List.cons_append]
      exact inner.cons _

theorem headsAll_appendToAll_perm : ∀ ts : List ElementTree,
    headsAll (appendToAll serial more ts) ~ headsAll ts ++ additions serial more (headsAll ts)
  | [] => .refl _
  | t :: rest => by
    have first := heads_appendTo_perm t
    have later := headsAll_appendToAll_perm rest
    rw [appendToAll, headsAll, headsAll, additions_append]
    refine (first.append later).trans ?_
    rw [List.append_assoc, List.append_assoc]
    refine List.Perm.append_left _ ?_
    rw [← List.append_assoc, ← List.append_assoc]
    exact List.perm_append_comm.append_right _

end

/-- Where serials are given once, what is added to an element of the tree comes to stand in it once. -/
theorem heads_appendTo_perm_once {t : ElementTree} (once : ((heads t).map (·.serial)).Nodup)
    (there : ∃ e ∈ heads t, e.serial = serial) :
    heads (appendTo serial more t) ~ heads t ++ headsAll more := by
  obtain ⟨e, mem, rfl⟩ := there
  have serials : ((heads t).filter (·.serial = e.serial)).map (·.serial) = [e.serial] := by
    have one : ((heads t).map (·.serial)).count e.serial = 1 :=
      List.count_eq_one_of_mem once (List.mem_map_of_mem mem)
    rw [show ((heads t).filter (·.serial = e.serial)).map (·.serial) =
      ((heads t).map (·.serial)).filter (· == e.serial) by rw [List.filter_map]; rfl, List.filter_beq, one]
    rfl
  obtain ⟨a, only, -⟩ := List.map_eq_singleton_iff.mp serials
  have added : additions e.serial more (heads t) = headsAll more := by
    rw [additions, only, List.flatMap_singleton]
  exact added ▸ heads_appendTo_perm t

end appending

end ElementTree

open ElementTree Render RenderState

/-! ### What is drawn so far -/

/-- No serial is given twice to the elements drawn so far, and an id that is known is that of one. -/
structure Numbers (heads : List ElementHead) (s : RenderState) : Prop where
  distinct : (heads.map (·.serial)).Nodup
  made : ∀ e ∈ heads, e.serial < s.serial
  known : ∀ entry ∈ s.ids, ∃ e ∈ heads, e.serial = entry.2

/-- Elements and their hosts point at each other, and only hosts have an element behind them. -/
structure Hosts (heads : List ElementHead) (instances : List RenderedInstance) : Prop where
  hosted : ∀ e ∈ heads, ∀ host ∈ e.host?,
    (instances[host.index]?).bind (·.backing?) = some (.element e.serial)
  backed : ∀ i n, (instances[i]?).bind (·.backing?) = some (.element n) →
    ∃ e ∈ heads, e.serial = n ∧ e.host? = some ⟨i⟩
  kinds : ∀ i ∈ instances, i.kind = .host ↔ ∃ n, i.backing? = some (.element n)

/-- What holds of the elements drawn so far. -/
structure Tallies (heads : List ElementHead) (s : RenderState) : Prop where
  numbers : Numbers heads s
  hosts : Hosts heads s.instances

section drawing

variable {heads others : List ElementHead} {instances : List RenderedInstance} {s t : RenderState}
  {e : ElementHead} {i : RenderedInstance}

/-- One more element. -/
theorem Numbers.numbered (h : Numbers heads s) (attributes : List (String × String))
    (serial : e.serial = s.serial) : Numbers (heads ++ [e]) (s.numbered attributes) where
  distinct := by
    rw [List.map_append, List.nodup_append]
    refine ⟨h.distinct, List.nodup_singleton _, fun n old m new => ?_⟩
    obtain ⟨a, mem, rfl⟩ := List.mem_map.mp old
    have before := h.made a mem
    have now : m = e.serial := by simpa using new
    omega
  made a mem := by
    show a.serial < s.serial + 1
    rcases List.mem_append.mp mem with old | new
    · have before := h.made a old
      omega
    · rw [List.mem_singleton.mp new]
      omega
  known entry mem := by
    have entries : entry ∈ s.ids ∨ entry.2 = s.serial := by
      unfold RenderState.numbered at mem
      dsimp only at mem
      split at mem
      · rcases List.mem_append.mp mem with old | new
        · exact .inl old
        · exact .inr (by rw [List.mem_singleton.mp new])
      · exact .inl mem
    rcases entries with old | new
    · obtain ⟨a, there, same⟩ := h.known entry old
      exact ⟨a, List.mem_append_left _ there, same⟩
    · exact ⟨e, List.mem_append_right _ (List.mem_singleton_self e), serial.trans new.symm⟩

/-- Instances and objects make no difference. -/
theorem Numbers.of_eq (h : Numbers heads s) (serial : t.serial = s.serial) (ids : t.ids = s.ids) :
    Numbers heads t where
  distinct := h.distinct
  made e mem := serial ▸ h.made e mem
  known entry mem := h.known entry (ids ▸ mem)

theorem Numbers.perm (h : Numbers heads s) (perm : heads.Perm others) : Numbers others s where
  distinct := (perm.map _).nodup_iff.mp h.distinct
  made e mem := h.made e (perm.mem_iff.mpr mem)
  known entry mem := by
    obtain ⟨e, old, same⟩ := h.known entry mem
    exact ⟨e, perm.mem_iff.mp old, same⟩

/-- One more element without a host. -/
theorem Hosts.bare (h : Hosts heads instances) (bare : e.host? = none) :
    Hosts (heads ++ [e]) instances where
  hosted a mem host known := by
    rcases List.mem_append.mp mem with old | new
    · exact h.hosted a old host known
    · rw [List.mem_singleton.mp new, bare] at known
      cases known
  backed i n back := by
    obtain ⟨a, there, same⟩ := h.backed i n back
    exact ⟨a, List.mem_append_left _ there, same⟩
  kinds := h.kinds

/-- What stands behind the instances of a list and behind one more. -/
theorem backing?_concat_iff {n : Nat} {b : RenderedBacking} :
    ((instances ++ [i])[n]?).bind (·.backing?) = some b ↔
      (instances[n]?).bind (·.backing?) = some b ∨ n = instances.length ∧ i.backing? = some b := by
  by_cases old : n < instances.length
  · rw [List.getElem?_append_left old]
    simp [Nat.ne_of_lt old]
  · rw [List.getElem?_append_right (by omega), List.getElem?_eq_none (show instances.length ≤ n by omega)]
    by_cases last : n = instances.length
    · simp [last]
    · rw [List.getElem?_eq_none (by simp; omega)]
      simp [last]

/-- One more element with its host. -/
theorem Hosts.hosting (h : Hosts heads instances) (host : e.host? = some ⟨instances.length⟩)
    (kind : i.kind = .host) (back : i.backing? = some (.element e.serial)) :
    Hosts (heads ++ [e]) (instances ++ [i]) where
  hosted a mem host' known := by
    rw [backing?_concat_iff]
    rcases List.mem_append.mp mem with old | new
    · exact .inl (h.hosted a old host' known)
    · rw [List.mem_singleton.mp new, host] at known
      cases known
      rw [List.mem_singleton.mp new]
      exact .inr ⟨rfl, back⟩
  backed m n behind := by
    rcases backing?_concat_iff.mp behind with old | ⟨rfl, new⟩
    · obtain ⟨a, there, same⟩ := h.backed m n old
      exact ⟨a, List.mem_append_left _ there, same⟩
    · rw [back] at new
      cases new
      exact ⟨e, List.mem_append_right _ (List.mem_singleton_self e), rfl, host⟩
  kinds j mem := by
    rcases List.mem_append.mp mem with old | new
    · exact h.kinds j old
    · rw [List.mem_singleton.mp new]
      exact ⟨fun _ => ⟨_, back⟩, fun _ => kind⟩

/-- One more instance that is no host. -/
theorem Hosts.adding (h : Hosts heads instances) (kind : i.kind ≠ .host)
    (back : ∀ n, i.backing? ≠ some (.element n)) : Hosts heads (instances ++ [i]) where
  hosted a mem host known := backing?_concat_iff.mpr (.inl (h.hosted a mem host known))
  backed m n behind := by
    rcases backing?_concat_iff.mp behind with old | ⟨-, new⟩
    · exact h.backed m n old
    · exact absurd new (back n)
  kinds j mem := by
    rcases List.mem_append.mp mem with old | new
    · exact h.kinds j old
    · rw [List.mem_singleton.mp new]
      exact ⟨fun host => absurd host kind, fun ⟨n, behind⟩ => absurd behind (back n)⟩

theorem Hosts.perm (h : Hosts heads instances) (perm : heads.Perm others) : Hosts others instances where
  hosted e mem := h.hosted e (perm.mem_iff.mpr mem)
  backed i n back := by
    obtain ⟨e, old, same⟩ := h.backed i n back
    exact ⟨e, perm.mem_iff.mp old, same⟩
  kinds := h.kinds

/-- In which order elements come makes no difference. -/
theorem Tallies.perm (h : Tallies heads s) (perm : heads.Perm others) : Tallies others s :=
  ⟨h.numbers.perm perm, h.hosts.perm perm⟩

/-- The elements of an element's tree and of those after it. -/
theorem headsAll_element {head : ElementHead} {text? : Option String} {content more : List ElementTree} :
    headsAll (.element head (leadingText text? ++ content) :: more) =
      head :: (headsAll content ++ headsAll more) := by
  rw [headsAll, ElementTree.heads, headsAll_leadingText, List.cons_append]

/-- Nodes outside the app. -/
theorem MarkupDrawn.tallies {nodes : List FixtureNode} {trees : List ElementTree}
    (drawn : MarkupDrawn nodes s trees t) :
    ∀ {heads : List ElementHead}, Tallies heads s → Tallies (heads ++ headsAll trees) t := by
  induction drawn with
  | nothing =>
    intro heads h
    rwa [headsAll, List.append_nil]
  | text _ ih => exact ih
  | @element tag attributes _ rect? _ _ s _ _ _ _ _ _ inner outer =>
    intro heads h
    have first : Tallies (heads ++ [s.nextHead tag attributes rect? none]) (s.numbered attributes) :=
      ⟨h.numbers.numbered attributes nextHead_serial, h.hosts.bare rfl⟩
    have all := outer (inner first)
    rw [headsAll_element]
    rwa [List.append_assoc, List.append_assoc] at all

/-- Nodes of the app, one case for each form of node. -/
theorem Drawn.tallies {owner : InstanceId} {nodes : List FixtureNode} {trees : List ElementTree}
    (drawn : Drawn owner nodes s trees t) :
    ∀ {heads : List ElementHead}, Tallies heads s → Tallies (heads ++ headsAll trees) t := by
  induction drawn with
  | nothing =>
    intro heads h
    rwa [headsAll, List.append_nil]
  | text _ ih => exact ih
  | @element owner tag attributes _ rect? _ _ s _ _ _ _ _ _ inner outer =>
    intro heads h
    have first : Tallies (heads ++ [s.nextHead tag attributes rect? (some s.nextInstance)])
        (s.hosting owner tag attributes) :=
      ⟨(h.numbers.numbered attributes nextHead_serial).of_eq rfl rfl, h.hosts.hosting rfl rfl rfl⟩
    have all := outer (inner first)
    rw [headsAll_element]
    rwa [List.append_assoc, List.append_assoc] at all
  | @component owner name kind displayName? props _ _ s _ _ _ _ _ _ inner outer =>
    intro heads h
    have first : Tallies heads (s.placing owner name kind displayName? props) :=
      ⟨h.numbers.of_eq backing_serial backing_ids, placing_instances ▸
        h.hosts.adding nextComponent_kind fun _ => nextComponent_backing?⟩
    have all := outer (inner first)
    rwa [headsAll_append, ← List.append_assoc]
  | portal _ ih =>
    intro heads h
    exact ih ⟨h.numbers.of_eq rfl rfl, h.hosts.adding nofun nofun⟩

end drawing

/-! ### The document -/

/-- The element at the top of every document. -/
def Render.topHead : ElementHead := ⟨0, "html", [], none, none⟩

/-- What holds of a document while portals are drawn into it. It keeps its top and its body. -/
structure Render.Stands (document : ElementTree) (s : RenderState) : Prop where
  tallies : Tallies (heads document) s
  top : ∃ content, document = .element topHead content
  body : ∃ e ∈ heads document, e.serial = 2

/-- One portal: its trees go into the body or into an element that is known, each of which is there. -/
theorem Render.Stands.appendTo {document : ElementTree} {s t : RenderState} {portal : PendingPortal}
    {rest : List PendingPortal} {n : Nat} {trees : List ElementTree} (h : Stands document s)
    (target : n = 2 ∨ (portal.target, n) ∈ s.ids)
    (drawn : Drawn portal.owner portal.children { s with pending := rest } trees t) :
    Stands (document.appendTo n trees) t := by
  have there : ∃ e ∈ heads document, e.serial = n := by
    rcases target with rfl | known
    · exact h.body
    · exact h.tallies.numbers.known _ known
  have together := @heads_appendTo_perm_once n trees _ h.tallies.numbers.distinct there
  have tallies : Tallies (heads document ++ headsAll trees) t :=
    drawn.tallies ⟨h.tallies.numbers.of_eq rfl rfl, h.tallies.hosts⟩
  refine ⟨tallies.perm together.symm, ?_, ?_⟩
  · obtain ⟨content, rfl⟩ := h.top
    exact ⟨_, rfl⟩
  · obtain ⟨e, mem, body⟩ := h.body
    exact ⟨e, together.mem_iff.mpr (List.mem_append_left _ mem), body⟩

/-- What rendering has drawn when it comes to the portals. -/
theorem Render.stands_rootDocument {f : Fixture} {markup app : List ElementTree} {s t : RenderState}
    (outside : MarkupDrawn f.markup ⟨3, [], [], 0, []⟩ markup s)
    (inside : Drawn s.nextInstance f.app s.mounted app t) :
    Stands (rootDocument s.serial markup app) t := by
  have start : Tallies [topHead, ⟨1, "head", [], none, none⟩, ⟨2, "body", [], none, none⟩]
      ⟨3, [], [], 0, []⟩ := by
    refine ⟨⟨by decide, by decide, nofun⟩, ⟨?_, nofun, nofun⟩⟩
    simp [topHead]
  have drawn := outside.tallies start
  have mounted : Tallies (_ ++ [⟨s.serial, "div", [("id", "root")], none, none⟩]) s.mounted :=
    ⟨(drawn.numbers.numbered [("id", "root")] rfl).of_eq rfl rfl,
      (drawn.hosts.bare rfl).adding nofun nofun⟩
  have whole : heads (rootDocument s.serial markup app) =
      ([topHead, ⟨1, "head", [], none, none⟩, ⟨2, "body", [], none, none⟩] ++ headsAll markup ++
        [⟨s.serial, "div", [("id", "root")], none, none⟩]) ++ headsAll app := by
    simp [rootDocument, frame, topHead, heads, headsAll]
  refine ⟨whole ▸ inside.tallies mounted, ⟨_, rfl⟩, ?_⟩
  rw [whole]
  exact ⟨⟨2, "body", [], none, none⟩, by simp, rfl⟩

/-- **The elements of a rendered document and their hosts are in order.** -/
theorem Fixture.renderDocument_stands {f : Fixture} {document : ElementTree} {t : RenderState}
    (h : f.renderDocument ⟨0, [], [], 0, []⟩ = .ok (document, t)) : Stands document t := by
  obtain ⟨markup, s, app, s', outside, inside, last⟩ := renderDocument_cases h
  exact portals_keeps (fun stands _ target drawn => stands.appendTo target drawn)
    (stands_rootDocument outside inside) last

theorem Fixture.render_stands {f : Fixture} {r : Rendering} (h : f.render = .ok r) :
    ∃ s, Stands r.document s ∧ r.instances = s.instances := by
  unfold render at h
  cases rendered : f.renderDocument ⟨0, [], [], 0, []⟩ with
  | error x => rw [rendered] at h; cases h
  | ok result =>
    rw [rendered] at h
    obtain rfl := Except.ok.inj h
    exact ⟨result.2, renderDocument_stands rendered, rfl⟩

/-! ### Numbers on the page -/

namespace FixturePage

/-- The number of a tree's top, if it is an element. -/
def numberOf? (p : FixturePage) : ElementTree → Option Nat
  | .text _ => none
  | .element head _ => some (p.placeOf head.serial)

/-- The numbers of the elements right in the content of a node. -/
def childNumbers (p : FixturePage) (n : Nat) : List Nat :=
  ((p.elements[n]?).map (·.content)).elim [] fun content => content.filterMap p.numberOf?

/-- The nodes are a preorder numbering of one tree. -/
structure InDocumentOrder (p : FixturePage) : Prop where
  top : (p.elements[0]?).map (·.parent?) = some none
  /-- Every other node has an earlier parent, in whose content it stands once. -/
  parent : ∀ n e, 0 < n → p.elements[n]? = some e →
    ∃ q < n, e.parent? = some q ∧ (p.childNumbers q).count n = 1
  child : ∀ q, ∀ n ∈ p.childNumbers q, (p.elements[n]?).bind (·.parent?) = some q
  ascending : ∀ q, (p.childNumbers q).Pairwise (· < ·)
  /-- The nodes within a node are numbered from it on without a gap. -/
  block : ∀ n < p.elements.size, ∃ last ≤ p.elements.size,
    ∀ m, p.toPage.isWithin ⟨m⟩ ⟨n⟩ = true ↔ n ≤ m ∧ m < last
  rooted : ∀ n < p.elements.size, p.toPage.isWithin ⟨n⟩ ⟨0⟩ = true

end FixturePage

namespace Rendering

variable {r : Rendering} {n : Nat} {e : PlacedElement}

/-- Where serials are given once, an element stands at its place. -/
theorem placeOf_serial (distinct : ((heads r.document).map (·.serial)).Nodup)
    (here : r.page.elements[n]? = some e) : r.page.placeOf e.head.serial = n := by
  have there := FixturePage.serial_at_placeOf ⟨e, Array.mem_of_getElem? here, rfl⟩
  rw [getElem?_elements] at here there
  have serials : (heads r.document).map (·.serial) =
      (r.document.placed none 0).map fun e => e.head.serial := by
    rw [← map_head_placed none 0 r.document, List.map_map]
    rfl
  rw [serials] at distinct
  have inside : n < ((r.document.placed none 0).map fun e => e.head.serial).length := by
    obtain ⟨inside, -⟩ := List.getElem?_eq_some_iff.mp here
    rwa [List.length_map]
  refine ((List.getElem?_inj inside distinct).mp ?_).symm
  rw [List.getElem?_map, List.getElem?_map, there, here]
  rfl

/-- The elements right in some content, found by their serials, have the numbers that they are given. -/
theorem map_placeOf_eq (distinct : ((heads r.document).map (·.serial)).Nodup) (parent? : Option Nat) :
    ∀ {ts : List ElementTree} {number : Nat},
      placedAll parent? number ts <+: (r.document.placed none 0).drop number →
      ts.filterMap r.page.numberOf? = topNumbers number ts
  | [], _, _ => rfl
  | .text _ :: rest, number, h => @map_placeOf_eq distinct parent? rest number h
  | .element head content :: rest, number, h => by
    have length := length_placed parent? number (.element head content)
    obtain ⟨after, all⟩ := h
    rw [placedAll, List.append_assoc] at all
    have here : r.page.elements[number]? = some ⟨parent?, head, content⟩ := by
      rw [getElem?_elements, ← Nat.add_zero number, ← List.getElem?_drop, ← all]
      rfl
    have later : placedAll parent? (number + size (.element head content)) rest <+:
        (r.document.placed none 0).drop (number + size (.element head content)) := by
      refine ⟨after, ?_⟩
      rw [← List.drop_drop, ← all, ← length, List.drop_left]
    rw [topNumbers, ← map_placeOf_eq distinct parent? later]
    exact congrArg (· :: _) (placeOf_serial distinct here)

theorem childNumbers_eq (distinct : ((heads r.document).map (·.serial)).Nodup)
    (here : r.page.elements[n]? = some e) : r.page.childNumbers n = topNumbers (n + 1) e.content := by
  rw [FixturePage.childNumbers, here]
  refine map_placeOf_eq distinct (some n) ?_
  obtain ⟨rest, all⟩ := placed_block here
  rw [placed_tree, List.cons_append] at all
  refine ⟨rest, ?_⟩
  rw [← List.drop_drop, ← all]
  rfl

/-- **Nodes and hosts point at each other.** A node has the host that has it behind. -/
theorem host?_iff {s : RenderState} (h : Stands r.document s) (instances : r.instances = s.instances)
    {i : InstanceId} : r.page.toPage.host? ⟨n⟩ = some i ↔
      r.page.toPage.kind i = .host ∧ r.page.toPage.backing? i = some (.node ⟨n⟩) := by
  have same : r.page.instances[i.index]? = s.instances[i.index]? := by
    rw [← instances]
    exact List.getElem?_toArray
  have drawn : ∀ a, a ∈ heads r.document ↔ ∃ (m : Nat) (e : PlacedElement),
      r.page.elements[m]? = some e ∧ e.head = a := by
    intro a
    rw [← map_head_placed none 0 r.document, List.mem_map]
    simp only [List.mem_iff_getElem?, getElem?_elements]
    exact ⟨fun ⟨e, ⟨m, there⟩, head⟩ => ⟨m, e, there, head⟩,
      fun ⟨m, e, there, head⟩ => ⟨e, ⟨m, there⟩, head⟩⟩
  show ((r.page.elements[n]?).bind (·.head.host?)) = some i ↔
    ((r.page.instances[i.index]?).map (·.kind)).getD .fragment = .host ∧
      ((r.page.instances[i.index]?).bind (·.backing?)).map r.page.backingOf = some (.node ⟨n⟩)
  rw [same]
  constructor
  · intro hosted
    obtain ⟨e, here, host⟩ := Option.bind_eq_some_iff.mp hosted
    have back := h.tallies.hosts.hosted e.head ((drawn _).mpr ⟨n, e, here, rfl⟩) i host
    obtain ⟨x, there, behind⟩ := Option.bind_eq_some_iff.mp back
    refine ⟨?_, ?_⟩
    · rw [there]
      exact (h.tallies.hosts.kinds x (List.mem_of_getElem? there)).mpr ⟨_, behind⟩
    · rw [back, Option.map_some, FixturePage.backingOf, placeOf_serial h.tallies.numbers.distinct here]
  · rintro ⟨-, behind⟩
    obtain ⟨b, back, node⟩ := Option.map_eq_some_iff.mp behind
    cases b with
    | object key => cases node
    | element serial =>
      obtain ⟨a, mem, rfl, host⟩ := h.tallies.hosts.backed i.index serial back
      obtain ⟨m, e, there, rfl⟩ := (drawn a).mp mem
      have place := placeOf_serial h.tallies.numbers.distinct there
      obtain rfl : m = n := by
        rw [FixturePage.backingOf, place] at node
        exact congrArg NodeId.index (Backing.node.inj node)
      rw [there]
      exact host

theorem childNumbers_cases (distinct : ((heads r.document).map (·.serial)).Nodup) (q : Nat) :
    r.page.childNumbers q = [] ∨ ∃ e, r.page.elements[q]? = some e ∧
      r.page.childNumbers q = topNumbers (q + 1) e.content := by
  cases here : r.page.elements[q]? with
  | none =>
    refine .inl ?_
    rw [FixturePage.childNumbers, here]
    rfl
  | some e => exact .inr ⟨e, rfl, childNumbers_eq distinct here⟩

theorem childNumbers_ascending (distinct : ((heads r.document).map (·.serial)).Nodup) (q : Nat) :
    (r.page.childNumbers q).Pairwise (· < ·) := by
  rcases childNumbers_cases distinct q with none | ⟨e, -, numbers⟩
  · rw [none]
    exact .nil
  · rw [numbers]
    exact topNumbers_ascending

/-- The first element has no other around and all elements within. -/
theorem first_element (top : ∃ head content, r.document = .element head content) :
    ∃ e, r.page.elements[0]? = some e ∧ e.parent? = none ∧ r.page.elements.size = e.tree.size := by
  obtain ⟨head, content, document⟩ := top
  have size : r.page.elements.size = (r.document.placed none 0).length := List.size_toArray
  rw [length_placed] at size
  rw [getElem?_elements, size, document]
  exact ⟨⟨none, head, content⟩, rfl, rfl, rfl⟩

/-- Where serials are given once, nodes are numbered in document order. -/
theorem inDocumentOrder (distinct : ((heads r.document).map (·.serial)).Nodup)
    (top : ∃ head content, r.document = .element head content) : r.page.InDocumentOrder := by
  obtain ⟨first, zero, bare, size⟩ := first_element top
  refine ⟨?_, fun n e later here => ?_, fun q n child => ?_, childNumbers_ascending distinct,
    fun n inside => ?_, fun n inside => ?_⟩
  · rw [zero, Option.map_some, bare]
  · rcases parent_spec here with ⟨none, -⟩ | ⟨q, a, lt, there, parent, -, child⟩
    · omega
    · refine ⟨q, lt, parent, List.count_eq_one_of_mem ?_ ?_⟩
      · exact (childNumbers_ascending distinct q).imp Nat.ne_of_lt
      · rwa [childNumbers_eq distinct there]
  · rcases childNumbers_cases distinct q with none | ⟨e, here, numbers⟩
    · rw [none] at child
      cases child
    · rw [numbers] at child
      obtain ⟨a, there, parent⟩ := child_spec here child
      rw [there]
      exact parent
  · have here := Array.getElem?_eq_getElem inside
    exact ⟨_, add_size_le here, fun m => isWithin_iff here⟩
  · exact (isWithin_iff zero).mpr (by omega)

end Rendering

end PageQuery

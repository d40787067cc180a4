/-
# Rendering makes what it links to

Rendering numbers elements, objects and instances as it goes. Whatever it has made so far is sound:
no object and no element stands behind two instances, and an instance with nothing behind it hangs
below an earlier one. Each element that is numbered comes to stand in the document, be it at once or,
inside a portal, behind what its target holds by then.

Every step keeps this, so the page of a fixture that renders has it.

Key definitions: `ElementTree.heads`, `RenderState.Sound`, `Render.Draws`, `FixturePage.Sound`.
Key theorems: `ElementTree.mem_heads_appendTo`, `Render.appNode_draws`, `Render.portals_shows`,
`Fixture.render_sound`.
-/
import PageQuery.Proofs.Fixture.Numbering
import PageQuery.Proofs.Json.Canonical
import PageQuery.Proofs.Results
import Mathlib.Data.List.Nodup
import Mathlib.Order.Basic

namespace PageQuery

/-! ### Elements of trees -/

namespace ElementTree

mutual

/-- The elements without their content, in document order. -/
def heads : ElementTree → List ElementHead
  | .text _ => []
  | .element head content => head :: headsAll content

def headsAll : List ElementTree → List ElementHead
  | [] => []
  | t :: rest => heads t ++ headsAll rest

end

@[simp] theorem headsAll_append (first second : List ElementTree) :
    headsAll (first ++ second) = headsAll first ++ headsAll second := by
  induction first with
  | nil => rfl
  | cons t rest ih => rw [List.cons_append, headsAll, headsAll, ih, List.append_assoc]

mutual

/-- Numbering the elements keeps them. -/
theorem map_head_placed (parent? : Option Nat) (number : Nat) :
    (t : ElementTree) → (placed parent? number t).map (·.head) = heads t
  | .text _ => rfl
  | .element head content => by
    rw [placed, heads, List.map_cons, map_head_placedAll (some number) (number + 1) content]

theorem map_head_placedAll (parent? : Option Nat) (number : Nat) :
    (ts : List ElementTree) → (placedAll parent? number ts).map (·.head) = headsAll ts
  | [] => rfl
  | t :: rest => by
    rw [placedAll, headsAll, List.map_append, map_head_placed parent? number t,
      map_head_placedAll parent? (number + size t) rest]

end

section appending

variable {serial : Nat} {more : List ElementTree} {e : ElementHead}

mutual

/-- What is added to an element of the tree comes to stand in it, and what stood in it stays. -/
theorem mem_heads_appendTo : (t : ElementTree) → (e ∈ heads (appendTo serial more t) ↔
    e ∈ heads t ∨ (∃ a ∈ heads t, a.serial = serial) ∧ e ∈ headsAll more)
  | .text _ => by simp [appendTo, heads]
  | .element head content => by
    have within := mem_headsAll_appendToAll content
    rw [appendTo, heads, heads, List.mem_cons, List.exists_mem_cons_iff]
    by_cases here : head.serial = serial
    · rw [if_pos here, headsAll_append, List.mem_append, within, List.mem_cons]
      tauto
    · rw [if_neg here, within, List.mem_cons]
      tauto

theorem mem_headsAll_appendToAll : (ts : List ElementTree) → (e ∈ headsAll (appendToAll serial more ts) ↔
    e ∈ headsAll ts ∨ (∃ a ∈ headsAll ts, a.serial = serial) ∧ e ∈ headsAll more)
  | [] => by simp [appendToAll, headsAll]
  | t :: rest => by
    simp only [appendToAll, headsAll, List.mem_append, mem_heads_appendTo t,
      mem_headsAll_appendToAll rest, or_and_right, exists_or]
    exact or_or_or_comm

end

end appending

end ElementTree

open ElementTree

/-! ### What has been made so far -/

/-- An instance at a place hangs below an earlier one or has something behind it. -/
def RenderedInstance.FoundedAt (i : RenderedInstance) (place : Nat) : Prop :=
  match i.parent? with
  | some parent => parent.index < place
  | none => i.backing?.isSome

namespace RenderState

/-- What stands behind the instances. -/
def backings (s : RenderState) : List RenderedBacking := s.instances.filterMap (·.backing?)

/-- An element or an object that has been made. -/
def Made (s : RenderState) : RenderedBacking → Prop
  | .element serial => serial < s.serial
  | .object key => key ≤ s.objects

/-- Something that has been made and stands behind no instance yet. -/
structure Free (s : RenderState) (b : RenderedBacking) : Prop where
  made : s.Made b
  unused : b ∉ s.backings

/-- What is known by its id has been made, and so has what stands behind an instance; nothing stands
behind two, and every instance has a foundation. Portals belong to instances. -/
structure Sound (s : RenderState) : Prop where
  ids : ∀ entry ∈ s.ids, entry.2 < s.serial
  made : ∀ b ∈ s.backings, s.Made b
  distinct : s.backings.Nodup
  founded : ∀ (place : Nat) (i : RenderedInstance), s.instances[place]? = some i → i.FoundedAt place
  owned : ∀ portal ∈ s.pending, portal.owner.index < s.instances.length

theorem sound_start : Sound ⟨0, [], [], 0, []⟩ where
  ids := nofun
  made := nofun
  distinct := .nil
  founded := nofun
  owned := nofun

/-- A portal that has its turn belongs to an instance, and so do those after it. -/
theorem Sound.popped {s : RenderState} (sound : s.Sound) {portal : PendingPortal}
    {rest : List PendingPortal} (waits : s.pending = portal :: rest) :
    Sound { s with pending := rest } ∧ portal.owner.index < s.instances.length := by
  have owned := sound.owned
  rw [waits] at owned
  obtain ⟨first, others⟩ := List.forall_mem_cons.mp owned
  exact ⟨{ sound with owned := others }, first⟩

end RenderState

open RenderState

namespace Render

variable {α β : Type} {s t u : RenderState}

/-- A step after another. -/
@[simp] theorem bind_eq_ok {m : Render α} {f : α → Render β} {b : β} :
    (m >>= f) s = .ok (b, u) ↔ ∃ a t, m s = .ok (a, t) ∧ f a t = .ok (b, u) := by
  show (m s).bind (fun p => f p.1 p.2) = .ok (b, u) ↔ _
  rw [bind_ok_iff, Prod.exists]

@[simp] theorem pure_eq_ok {a b : α} : (pure a : Render α) s = .ok (b, t) ↔ a = b ∧ s = t := by
  show Except.ok (a, s) = .ok (b, t) ↔ _
  rw [Except.ok.injEq, Prod.mk.injEq]

/-! ### Single steps -/

theorem eq_of_checkTag {tag : String} {a : Unit} (h : checkTag tag s = .ok (a, t)) : s = t := by
  unfold checkTag at h
  split at h
  · exact (pure_eq_ok.mp h).2
  · cases h

/-- A new element stands behind nothing. -/
theorem newSerial_spec (sound : s.Sound) {attributes : List (String × String)} {n : Nat}
    (h : newSerial attributes s = .ok (n, t)) :
    t.Sound ∧ t.Free (.element n) ∧ n = s.serial ∧ t.serial = s.serial + 1 ∧
      t.instances = s.instances := by
  cases h
  have unused : RenderedBacking.element s.serial ∉ s.backings := fun mem =>
    Nat.lt_irrefl s.serial (sound.made _ mem)
  refine ⟨?_, ⟨Nat.lt_succ_self _, unused⟩, rfl, rfl, rfl⟩
  refine { sound with ids := fun entry mem => ?_, made := fun b mem => ?_ }
  · show entry.2 < s.serial + 1
    split at mem
    · rcases List.mem_append.mp mem with mem | mem
      · exact Nat.lt_succ_of_lt (sound.ids entry mem)
      · rw [List.mem_singleton.mp mem]
        exact Nat.lt_succ_self _
    · exact Nat.lt_succ_of_lt (sound.ids entry mem)
  · have before := sound.made b mem
    cases b with
    | element n => exact Nat.lt_succ_of_lt before
    | object key => exact before

/-- A new object stands behind nothing. -/
theorem newObject_spec (sound : s.Sound) {key : Nat} (h : newObject s = .ok (key, t)) :
    t.Sound ∧ t.Free (.object key) ∧ t.serial = s.serial ∧ t.instances = s.instances := by
  cases h
  have unused : RenderedBacking.object (s.objects + 1) ∉ s.backings := fun mem =>
    Nat.lt_irrefl s.objects (sound.made _ mem)
  refine ⟨{ sound with made := fun b mem => ?_ }, ⟨Nat.le_refl _, unused⟩, rfl, rfl⟩
  have before := sound.made b mem
  cases b with
  | element n => exact before
  | object key => exact Nat.le_succ_of_le before

/-- A new instance may have behind it what stands behind no other. -/
theorem newInstance_spec (sound : s.Sound) {i : RenderedInstance} {id : InstanceId}
    (h : newInstance i s = .ok (id, t)) (free : ∀ b ∈ i.backing?, s.Free b)
    (founded : i.FoundedAt s.instances.length) :
    t.Sound ∧ id.index < t.instances.length ∧ t.serial = s.serial ∧
      s.instances.length ≤ t.instances.length := by
  cases h
  have length : (s.instances ++ [i]).length = s.instances.length + 1 := List.length_append
  have backings : RenderState.backings { s with instances := s.instances ++ [i] } =
      s.backings ++ i.backing?.toList := by
    show (s.instances ++ [i]).filterMap (·.backing?) = _
    rw [List.filterMap_append]
    cases e : i.backing? <;> simp [e, RenderState.backings]
  refine ⟨⟨sound.ids, fun b mem => ?_, ?_, fun place j here => ?_, fun portal mem => ?_⟩, ?_, rfl, ?_⟩
  · rw [backings] at mem
    rcases List.mem_append.mp mem with mem | mem
    · exact sound.made b mem
    · exact (free b (Option.mem_toList.mp mem)).made
  · rw [backings]
    refine List.nodup_append.mpr ⟨sound.distinct, ?_, fun b old c new e => ?_⟩
    · cases i.backing? <;> simp
    · exact (free c (Option.mem_toList.mp new)).unused (e ▸ old)
  · by_cases old : place < s.instances.length
    · exact sound.founded place j (List.getElem?_append_left old ▸ here)
    · obtain ⟨within, -⟩ := List.getElem?_eq_some_iff.mp here
      have within : place < (s.instances ++ [i]).length := within
      obtain rfl : place = s.instances.length := by omega
      obtain rfl : i = j := by simpa using here
      exact founded
  · exact (sound.owned portal mem).trans_le (length ▸ Nat.le_succ _)
  · exact length ▸ Nat.lt_succ_self _
  · exact length ▸ Nat.le_succ _

/-- The object behind a component stands behind nothing else. -/
theorem componentBacking?_spec (sound : s.Sound) {kind : ComponentKind}
    {b? : Option RenderedBacking} (h : componentBacking? kind s = .ok (b?, t)) :
    t.Sound ∧ (∀ b ∈ b?, t.Free b) ∧ t.serial = s.serial ∧ t.instances = s.instances := by
  have nothing : (pure none : Render (Option RenderedBacking)) s = .ok (b?, t) →
      t.Sound ∧ (∀ b ∈ b?, t.Free b) ∧ t.serial = s.serial ∧ t.instances = s.instances := by
    intro h
    obtain ⟨rfl, rfl⟩ := pure_eq_ok.mp h
    exact ⟨sound, nofun, rfl, rfl⟩
  cases kind with
  | classComponent =>
    obtain ⟨key, u, made, given⟩ := bind_eq_ok.mp h
    obtain ⟨rfl, rfl⟩ := pure_eq_ok.mp given
    obtain ⟨sound, free, serial, instances⟩ := newObject_spec sound made
    refine ⟨sound, fun b hb => ?_, serial, instances⟩
    cases hb
    exact free
  | function => exact nothing h
  | memo => exact nothing h
  | forwardRef => exact nothing h
  | fragment => exact nothing h

theorem postpone_spec (sound : s.Sound) {portal : PendingPortal}
    (owned : portal.owner.index < s.instances.length) {a : Unit}
    (h : postpone portal s = .ok (a, t)) :
    t.Sound ∧ t.serial = s.serial ∧ t.instances = s.instances := by
  cases h
  refine ⟨{ sound with owned := fun other mem => ?_ }, rfl, rfl⟩
  rcases List.mem_append.mp mem with mem | mem
  · exact sound.owned other mem
  · exact List.mem_singleton.mp mem ▸ owned

/-! ### Drawing trees -/

@[simp] theorem headsAll_leadingText (text? : Option String) (content : List ElementTree) :
    headsAll (leadingText text? ++ content) = headsAll content := by
  cases text? <;> rfl

/-- What drawing trees keeps: the elements that were numbered on the way stand in them, and hosts have
been made. -/
structure Draws (s : RenderState) (trees : List ElementTree) (t : RenderState) : Prop where
  sound : t.Sound
  serial_le : s.serial ≤ t.serial
  length_le : s.instances.length ≤ t.instances.length
  drawn : ∀ n, s.serial ≤ n → n < t.serial → ∃ e ∈ headsAll trees, e.serial = n
  hosted : ∀ e ∈ headsAll trees, ∀ host ∈ e.host?, host.index < t.instances.length

theorem Draws.nothing (sound : t.Sound) (serial : t.serial = s.serial)
    (length_le : s.instances.length ≤ t.instances.length) {trees : List ElementTree}
    (bare : headsAll trees = []) : Draws s trees t where
  sound := sound
  serial_le := serial.ge
  length_le := length_le
  drawn _ low high := absurd (serial ▸ high) (Nat.not_lt.mpr low)
  hosted _ mem := by rw [bare] at mem; cases mem

theorem Draws.append {trees more : List ElementTree} (first : Draws s trees t)
    (second : Draws t more u) : Draws s (trees ++ more) u where
  sound := second.sound
  serial_le := first.serial_le.trans second.serial_le
  length_le := first.length_le.trans second.length_le
  drawn n low high := by
    simp only [headsAll_append, List.mem_append, or_and_right, exists_or]
    by_cases early : n < t.serial
    · exact .inl (first.drawn n low early)
    · exact .inr (second.drawn n (Nat.not_lt.mp early) high)
  hosted e mem host known := by
    rw [headsAll_append, List.mem_append] at mem
    rcases mem with mem | mem
    · exact (first.hosted e mem host known).trans_le second.length_le
    · exact second.hosted e mem host known

/-- An element around what was drawn since it was numbered. -/
theorem Draws.element {head : ElementHead} {text? : Option String} {content : List ElementTree}
    (numbered : head.serial = s.serial) (next : t.serial = s.serial + 1)
    (length_le : s.instances.length ≤ t.instances.length)
    (host : ∀ host ∈ head.host?, host.index < t.instances.length) (h : Draws t content u) :
    Draws s [.element head (leadingText text? ++ content)] u := by
  have inner : headsAll [.element head (leadingText text? ++ content)] = head :: headsAll content := by
    rw [headsAll, headsAll, List.append_nil, heads, headsAll_leadingText]
  have later := h.serial_le
  refine ⟨h.sound, by omega, length_le.trans h.length_le, fun n low high => ?_, ?_⟩
  · rw [inner, List.exists_mem_cons_iff]
    by_cases self : n = s.serial
    · exact .inl (numbered.trans self.symm)
    · exact .inr (h.drawn n (by omega) high)
  · rw [inner]
    exact List.forall_mem_cons.mpr
      ⟨fun i known => (host i known).trans_le h.length_le, h.hosted⟩

mutual

theorem markupNode_draws : ∀ {node : FixtureNode} {s t : RenderState} {trees : List ElementTree},
    s.Sound → markupNode node s = .ok (trees, t) → Draws s trees t
  | .text _, s, t, _, sound, h => by
    obtain ⟨rfl, rfl⟩ := pure_eq_ok.mp h
    exact .nothing sound rfl (Nat.le_refl _) rfl
  | .element .., s, t, _, sound, h => by
    rw [markupNode] at h
    obtain ⟨_, s', checked, h⟩ := bind_eq_ok.mp h
    obtain rfl := eq_of_checkTag checked
    obtain ⟨n, s₁, numbered, h⟩ := bind_eq_ok.mp h
    obtain ⟨content, s₂, inner, h⟩ := bind_eq_ok.mp h
    obtain ⟨rfl, rfl⟩ := pure_eq_ok.mp h
    obtain ⟨sound, -, serial, next, instances⟩ := newSerial_spec sound numbered
    exact .element serial next (instances ▸ Nat.le_refl _) nofun (markupNodes_draws sound inner)
  | .component .., _, _, _, _, h => by rw [markupNode] at h; cases h
  | .portal .., _, _, _, _, h => by rw [markupNode] at h; cases h

theorem markupNodes_draws : ∀ {nodes : List FixtureNode} {s t : RenderState} {trees : List ElementTree},
    s.Sound → markupNodes nodes s = .ok (trees, t) → Draws s trees t
  | [], _, _, _, sound, h => by
    obtain ⟨rfl, rfl⟩ := pure_eq_ok.mp h
    exact .nothing sound rfl (Nat.le_refl _) rfl
  | node :: rest, _, _, _, sound, h => by
    rw [markupNodes] at h
    obtain ⟨trees, s₁, first, h⟩ := bind_eq_ok.mp h
    obtain ⟨more, s₂, second, h⟩ := bind_eq_ok.mp h
    obtain ⟨rfl, rfl⟩ := pure_eq_ok.mp h
    have drawn := markupNode_draws sound first
    exact drawn.append (markupNodes_draws drawn.sound second)

end

mutual

/-- A node of the app, one case per constructor. The owner has been made before. -/
theorem appNode_draws : ∀ {node : FixtureNode} {owner : InstanceId} {s t : RenderState}
    {trees : List ElementTree}, s.Sound → owner.index < s.instances.length →
    appNode owner node s = .ok (trees, t) → Draws s trees t
  | .text _, _, s, t, _, sound, _, h => by
    obtain ⟨rfl, rfl⟩ := pure_eq_ok.mp h
    exact .nothing sound rfl (Nat.le_refl _) rfl
  | .element .., owner, s, t, _, sound, earlier, h => by
    rw [appNode] at h
    obtain ⟨_, s', checked, h⟩ := bind_eq_ok.mp h
    obtain rfl := eq_of_checkTag checked
    obtain ⟨n, s₁, numbered, h⟩ := bind_eq_ok.mp h
    obtain ⟨host, s₂, hosted, h⟩ := bind_eq_ok.mp h
    obtain ⟨content, s₃, inner, h⟩ := bind_eq_ok.mp h
    obtain ⟨rfl, rfl⟩ := pure_eq_ok.mp h
    obtain ⟨sound, free, serial, next, instances⟩ := newSerial_spec sound numbered
    obtain ⟨sound, known, same, length⟩ := newInstance_spec sound hosted
      (fun b hb => by cases hb; exact free)
      (show owner.index < s₁.instances.length from instances ▸ earlier)
    exact .element serial (same.trans next) (instances ▸ length) (fun i hi => by cases hi; exact known)
      (appNodes_draws sound known inner)
  | .component .., owner, s, t, _, sound, earlier, h => by
    rw [appNode] at h
    obtain ⟨b?, s₁, backed, h⟩ := bind_eq_ok.mp h
    obtain ⟨i, s₂, added, inner⟩ := bind_eq_ok.mp h
    obtain ⟨sound, free, serial, instances⟩ := componentBacking?_spec sound backed
    obtain ⟨sound, known, same, length⟩ := newInstance_spec sound added free
      (show owner.index < s₁.instances.length from instances ▸ earlier)
    have placed : Draws s [] s₂ := .nothing sound (same.trans serial) (instances ▸ length) rfl
    exact placed.append (appNodes_draws sound known inner)
  | .portal .., owner, s, t, _, sound, earlier, h => by
    rw [appNode] at h
    obtain ⟨i, s₁, added, h⟩ := bind_eq_ok.mp h
    obtain ⟨_, s₂, later, h⟩ := bind_eq_ok.mp h
    obtain ⟨rfl, rfl⟩ := pure_eq_ok.mp h
    obtain ⟨sound, known, same, length⟩ := newInstance_spec sound added nofun earlier
    obtain ⟨sound, serial, instances⟩ := postpone_spec sound known later
    exact .nothing sound (serial.trans same) (instances ▸ length) rfl

theorem appNodes_draws : ∀ {nodes : List FixtureNode} {owner : InstanceId} {s t : RenderState}
    {trees : List ElementTree}, s.Sound → owner.index < s.instances.length →
    appNodes owner nodes s = .ok (trees, t) → Draws s trees t
  | [], _, _, _, _, sound, _, h => by
    obtain ⟨rfl, rfl⟩ := pure_eq_ok.mp h
    exact .nothing sound rfl (Nat.le_refl _) rfl
  | node :: rest, owner, _, _, _, sound, earlier, h => by
    rw [appNodes] at h
    obtain ⟨trees, s₁, first, h⟩ := bind_eq_ok.mp h
    obtain ⟨more, s₂, second, h⟩ := bind_eq_ok.mp h
    obtain ⟨rfl, rfl⟩ := pure_eq_ok.mp h
    have drawn := appNode_draws sound earlier first
    exact drawn.append (appNodes_draws drawn.sound (earlier.trans_le drawn.length_le) second)

end

/-! ### The document -/

/-- Portals add to elements that have been made. -/
theorem targetOf_spec (sound : s.Sound) {body n : Nat} {target : String} (made : body < s.serial)
    (h : targetOf body target s = .ok (n, t)) : n < s.serial ∧ s = t := by
  unfold targetOf at h
  split at h
  · cases h
    exact ⟨made, rfl⟩
  · split at h
    · next found =>
      cases h
      exact ⟨sound.ids _ (Fields.mem_of_find? found), rfl⟩
    · cases h

/-- A document in which all elements stand that have been made. -/
structure Shows (document : ElementTree) (s : RenderState) : Prop where
  sound : s.Sound
  drawn : ∀ n < s.serial, ∃ e ∈ heads document, e.serial = n
  hosted : ∀ e ∈ heads document, ∀ host ∈ e.host?, host.index < s.instances.length

/-- What is drawn may be added to any element. -/
theorem Shows.appendTo {document : ElementTree} {n : Nat} {trees : List ElementTree}
    (shows : Shows document s) (made : n < s.serial) (h : Draws s trees t) :
    Shows (document.appendTo n trees) t where
  sound := h.sound
  drawn m high := by
    simp only [mem_heads_appendTo, or_and_right, exists_or]
    by_cases early : m < s.serial
    · exact .inl (shows.drawn m early)
    · obtain ⟨e, mem, serial⟩ := h.drawn m (Nat.not_lt.mp early) high
      exact .inr ⟨e, ⟨shows.drawn n made, mem⟩, serial⟩
  hosted e mem host known := by
    rcases (mem_heads_appendTo document).mp mem with mem | ⟨-, mem⟩
    · exact (shows.hosted e mem host known).trans_le h.length_le
    · exact h.hosted e mem host known

/-- The run: rendering portals one after another, the document goes on to show what has been made. -/
theorem portals_shows {body : Nat} : ∀ {count : Nat} {document result : ElementTree} {s t : RenderState},
    Shows document s → body < s.serial → portals body count document s = .ok (result, t) →
    Shows result t
  | 0, _, _, _, _, shows, _, h => by
    obtain ⟨rfl, rfl⟩ := pure_eq_ok.mp h
    exact shows
  | count + 1, document, result, s, t, shows, made, h => by
    rw [portals] at h
    obtain ⟨portal?, s₁, next, h⟩ := bind_eq_ok.mp h
    unfold nextPending at next
    split at next
    · cases next
      obtain ⟨rfl, rfl⟩ := pure_eq_ok.mp h
      exact shows
    · next portal rest pending =>
      cases next
      obtain ⟨n, s₂, target, added⟩ := bind_eq_ok.mp h
      obtain ⟨trees, s₃, inner, others⟩ := bind_eq_ok.mp added
      obtain ⟨popped, owned⟩ := shows.sound.popped pending
      obtain ⟨there, rfl⟩ := targetOf_spec popped made target
      have drawn := appNodes_draws popped owned inner
      have before : Shows document { s with pending := rest } := ⟨popped, shows.drawn, shows.hosted⟩
      exact portals_shows (before.appendTo there drawn) (made.trans_le drawn.serial_le) others

end Render

open Render

/-- The document of a fixture shows all that rendering has made. -/
theorem Fixture.renderDocument_shows {f : Fixture} {document : ElementTree} {t : RenderState}
    (h : f.renderDocument ⟨0, [], [], 0, []⟩ = .ok (document, t)) : Shows document t := by
  unfold renderDocument at h
  simp only [bind_eq_ok] at h
  obtain ⟨html, s₁, first, head, s₂, second, body, s₃, third, markup, s₄, outside, h⟩ := h
  obtain ⟨mount, s₅, fourth, key, s₆, behind, root, s₇, top, app, s₈, inside, last⟩ := h
  obtain ⟨sound, -, html_eq, serial₁, instances₁⟩ := newSerial_spec sound_start first
  obtain ⟨sound, -, head_eq, serial₂, instances₂⟩ := newSerial_spec sound second
  obtain ⟨sound, -, body_eq, serial₃, instances₃⟩ := newSerial_spec sound third
  have around := markupNodes_draws sound outside
  obtain ⟨sound, -, mount_eq, serial₅, instances₅⟩ := newSerial_spec around.sound fourth
  obtain ⟨sound, free, serial₆, instances₆⟩ := newObject_spec sound behind
  obtain ⟨sound, known, serial₇, length₇⟩ := newInstance_spec sound top
    (fun b hb => by cases hb; exact free) rfl
  have app_draws := appNodes_draws sound known inside
  have length : s₄.instances.length ≤ s₇.instances.length := by
    rw [← instances₅, ← instances₆]
    exact length₇
  have mount_draws : Draws s₄ [frame mount "div" [("id", "root")] (leadingText none ++ app)] s₈ :=
    .element mount_eq (by omega) length nofun app_draws
  have draws := around.append mount_draws
  have start : RenderState.serial ⟨0, [], [], 0, []⟩ = 0 := rfl
  have later := draws.serial_le
  refine portals_shows ⟨draws.sound, fun n high => ?_, ?_⟩ (by omega) last
  · simp only [frame, heads, headsAll, List.append_nil, List.cons_append, List.nil_append,
      List.exists_mem_cons_iff]
    by_cases early : n < s₃.serial
    · by_cases html : n = 0
      · exact .inl (by omega)
      · by_cases head : n = 1
        · exact .inr (.inl (by omega))
        · exact .inr (.inr (.inl (by omega)))
    · exact .inr (.inr (.inr (draws.drawn n (Nat.not_lt.mp early) high)))
  · simp only [frame, heads, headsAll, List.append_nil, List.cons_append, List.nil_append]
    exact List.forall_mem_cons.mpr ⟨nofun, List.forall_mem_cons.mpr ⟨nofun,
      List.forall_mem_cons.mpr ⟨nofun, draws.hosted⟩⟩⟩

/-! ### Pages of fixtures -/

/-- Nothing stands behind two instances, an element behind an instance is one of the page, every
instance has a foundation, and hosts are instances of the page. -/
structure FixturePage.Sound (p : FixturePage) : Prop where
  distinct : (p.instances.toList.filterMap (·.backing?)).Nodup
  placed : ∀ i ∈ p.instances, ∀ n, i.backing? = some (.element n) → ∃ e ∈ p.elements, e.head.serial = n
  founded : ∀ (place : Nat) (i : RenderedInstance), p.instances[place]? = some i → i.FoundedAt place
  hosted : ∀ e ∈ p.elements, ∀ host ∈ e.head.host?, host.index < p.instances.size

/-- A page of all that rendering has made is sound. -/
theorem Render.Shows.page_sound {document : ElementTree} {s : RenderState} {p : FixturePage}
    (shows : Shows document s) (elements : p.elements.toList.map (·.head) = heads document)
    (instances : p.instances = s.instances.toArray) : p.Sound := by
  obtain ⟨sound, drawn, hosted⟩ := shows
  have mem_heads : ∀ a : ElementHead, a ∈ heads document ↔ ∃ e ∈ p.elements, e.head = a := by
    intro a
    rw [← elements, List.mem_map]
    simp only [Array.mem_toList_iff]
  have same : ∀ place : Nat, p.instances[place]? = s.instances[place]? := by simp [instances]
  refine ⟨?_, fun i mem n back => ?_, fun place i here => ?_, fun e mem host known => ?_⟩
  · rw [instances]
    exact sound.distinct
  · have mem : i ∈ s.instances := by simpa [instances] using mem
    have made := sound.made (.element n) (List.mem_filterMap.mpr ⟨i, mem, back⟩)
    obtain ⟨a, ha, serial⟩ := drawn n made
    obtain ⟨e, he, rfl⟩ := (mem_heads a).mp ha
    exact ⟨e, he, serial⟩
  · exact sound.founded place i (same place ▸ here)
  · have size : p.instances.size = s.instances.length := by simp [instances]
    rw [size]
    exact hosted e.head ((mem_heads e.head).mpr ⟨e, mem, rfl⟩) host known

/-- **The page of a fixture that renders is sound**, whether or not its markup keeps the tree. -/
theorem Fixture.render_sound {f : Fixture} {r : Rendering} (h : f.render = .ok r) : r.page.Sound := by
  unfold render at h
  cases e : f.renderDocument ⟨0, [], [], 0, []⟩ with
  | error x => rw [e] at h; cases h
  | ok rendered =>
    rw [e] at h
    cases h
    exact (renderDocument_shows e).page_sound (map_head_placed none 0 _) rfl

end PageQuery

/-
# The element to interact with

To interact with a component is to interact with one node: what the configured controls, tried in
order, find first in its elements, or else its first element. What it comes to hangs on the page and
the controls alone and is read off them here (`Page.targetIn?`).

On a page that is searched as documents are, the first control with a match in the component decides,
wherever its matches stand among those of the others; only among its own does the order of the document
count. A control behind it is not tried, so it does not matter whether it is valid.

Key definitions: `Page.controlIn?`, `Page.targetIn?`, `Page.Tries`, `Page.IsTarget`.
Key theorems: `Engine.fetchWithin_interactionElement`, `Page.targetIn?_cases`,
`Page.SearchesBelow.targetIn?_spec`, `Engine.fetchWithin_target`.
-/
import PageQuery.Engine.Basic
import PageQuery.Proofs.Component.SearchWithin
import PageQuery.Proofs.Engine.Functions

namespace PageQuery

namespace Page

/-! ### Controls in a component -/

/-- What the first control that finds anything in an instance finds first. -/
def controlIn? (page : Page) (i : InstanceId) : List String → Except QueryError (Option NodeId)
  | [] => .ok none
  | control :: rest => (page.foundWithin control [i]).bind fun found =>
    match found with
    | [] => page.controlIn? i rest
    | n :: _ => .ok (some n)

/-- The node in an instance to interact with: a control or else the first element. -/
def targetIn? (page : Page) (controls : List String) (i : InstanceId) :
    Except QueryError (Option NodeId) :=
  (page.controlIn? i controls).map fun control? => control?.or (page.elements i).head?

variable {page : Page} {meaning : SelectorMeaning} {i : InstanceId} {control : String}
  {controls : List String} {n : NodeId}

/-- What controls lead to: a node in an element of the instance, nothing, or a search that fails. -/
theorem controlIn?_cases : ∀ controls : List String,
    (∃ n, page.controlIn? i controls = .ok (some n) ∧
      ∃ e ∈ page.elements i, page.isWithin n e = true) ∨
    page.controlIn? i controls = .ok none ∨
    ∃ control ∈ controls, ∃ scope e, page.search scope control = .error e ∧
      page.controlIn? i controls = .error (.search e)
  | [] => .inr (.inl rfl)
  | control :: rest => by
    unfold controlIn?
    cases hits : page.foundWithin control [i] with
    | error x =>
      obtain ⟨scope, e, fails, rfl⟩ := of_foundWithin_error hits
      exact .inr (.inr ⟨control, List.mem_cons_self, scope, e, fails, rfl⟩)
    | ok found =>
      -- a control that is found decides; one that is not leaves it to the rest
      cases found with
      | cons n more => exact .inl ⟨n, rfl, inside_of_foundWithin hits n List.mem_cons_self⟩
      | nil =>
        rcases controlIn?_cases rest with inside | none | ⟨later, mem, fails⟩
        · exact .inl inside
        · exact .inr (.inl none)
        · exact .inr (.inr ⟨later, List.mem_cons_of_mem control mem, fails⟩)

/-- **With a component that owns a node, there is something to interact with.** -/
theorem targetIn?_cases (owns : page.elements i ≠ []) (controls : List String) :
    (∃ n, page.targetIn? controls i = .ok (some n) ∧
      ∃ e ∈ page.elements i, page.isWithin n e = true) ∨
    ∃ control ∈ controls, ∃ scope e, page.search scope control = .error e ∧
      page.targetIn? controls i = .error (.search e) := by
  unfold targetIn?
  rcases @controlIn?_cases page i controls with ⟨n, e, inside⟩ | e | ⟨control, mem, scope, s, fails, e⟩
  · exact .inl ⟨n, by rw [e]; rfl, inside⟩
  · obtain ⟨n, rest, elements⟩ := List.exists_cons_of_ne_nil owns
    exact .inl ⟨n, by rw [e, elements]; rfl, n, elements ▸ List.mem_cons_self, isWithin_self n⟩
  · exact .inr ⟨control, mem, scope, s, fails, by rw [e]; rfl⟩

/-! ### What the controls mean -/

/-- The control selects the node, and the node is in an element of the instance. -/
def HasMatch (page : Page) (meaning : SelectorMeaning) (i : InstanceId) (control : String)
    (n : NodeId) : Prop :=
  meaning.selects control n ∧ ∃ e ∈ page.elements i, page.isWithin n e = true

/-- The control is tried: no control before it has a match. -/
def Tries (page : Page) (meaning : SelectorMeaning) (controls : List String) (i : InstanceId)
    (control : String) : Prop :=
  ∃ before after, controls = before ++ control :: after ∧
    ∀ earlier ∈ before, ∀ n, ¬page.HasMatch meaning i earlier n

/-- The first match of the first control that has one or, if none has one, the first element. -/
inductive IsTarget (page : Page) (meaning : SelectorMeaning) (controls : List String)
    (i : InstanceId) (n : NodeId) : Prop
  | control {control : String} : page.Tries meaning controls i control →
    page.HasMatch meaning i control n →
    (∀ m, page.HasMatch meaning i control m → n.index ≤ m.index) → IsTarget page meaning controls i n
  | element {rest : List NodeId} : (∀ control ∈ controls, ∀ m, ¬page.HasMatch meaning i control m) →
    page.elements i = n :: rest → IsTarget page meaning controls i n

theorem tries_head {rest : List String} : page.Tries meaning (control :: rest) i control :=
  ⟨[], rest, rfl, nofun⟩

theorem Tries.cons {first : String} (h : page.Tries meaning controls i control)
    (none : ∀ n, ¬page.HasMatch meaning i first n) : page.Tries meaning (first :: controls) i control := by
  obtain ⟨before, after, rfl, lacking⟩ := h
  exact ⟨first :: before, after, rfl, List.forall_mem_cons.mpr ⟨none, lacking⟩⟩

/-- Beyond a control with a match none is tried. -/
theorem Tries.of_cons {first : String} (h : page.Tries meaning (first :: controls) i control) :
    control = first ∨ (∀ n, ¬page.HasMatch meaning i first n) ∧ page.Tries meaning controls i control := by
  obtain ⟨before, after, split, lacking⟩ := h
  cases before with
  | nil => exact .inl (List.cons.inj split).1.symm
  | cons earlier before =>
    obtain ⟨rfl, later⟩ := List.cons.inj split
    obtain ⟨none, lacking⟩ := List.forall_mem_cons.mp lacking
    exact .inr ⟨none, before, after, later, lacking⟩

namespace SearchesBelow

/-- A valid control finds its matches. -/
theorem exists_foundWithin (h : page.SearchesBelow meaning) (valid : meaning.valid control) :
    ∃ found, page.foundWithin control [i] = .ok found ∧
      ∀ n, n ∈ found ↔ page.HasMatch meaning i control n := by
  obtain ⟨found, ok⟩ := h.foundWithin_ok_iff.mpr fun _ : ∃ j ∈ [i], page.elements j ≠ [] => valid
  refine ⟨found, ok, fun n => ?_⟩
  rw [h.mem_of_foundWithin ok, HasMatch]
  simp only [List.mem_singleton, exists_eq_left]

/-- A control that is not valid makes the search fail in an instance that owns a node. -/
theorem foundWithin_error (h : page.SearchesBelow meaning) (owns : page.elements i ≠ [])
    (invalid : ¬meaning.valid control) : ∃ e, page.foundWithin control [i] = .error (.search e) := by
  cases hits : page.foundWithin control [i] with
  | ok found =>
    have valid := h.foundWithin_ok_iff.mp ⟨found, hits⟩ ⟨i, List.mem_singleton_self i, owns⟩
    exact absurd valid invalid
  | error x =>
    obtain ⟨-, e, -, rfl⟩ := of_foundWithin_error hits
    exact ⟨e, rfl⟩

/-- In an instance that owns nothing no control finds anything or fails. -/
theorem controlIn?_of_elements_nil (h : page.SearchesBelow meaning) (bare : page.elements i = []) :
    ∀ controls : List String, page.controlIn? i controls = .ok none
  | [] => rfl
  | control :: rest => by
    have lacking : ¬∃ j ∈ [i], page.elements j ≠ [] := by simpa using bare
    obtain ⟨found, ok⟩ := h.foundWithin_ok_iff.mpr fun owned => absurd owned lacking
    have nothing : found = [] := by
      refine List.eq_nil_iff_forall_not_mem.mpr fun n mem => ?_
      obtain ⟨e, he, -⟩ := inside_of_foundWithin ok n mem
      rw [bare] at he
      cases he
    rw [controlIn?, ok, nothing]
    exact controlIn?_of_elements_nil h bare rest

/-- If all controls that are tried are valid, the first with a match gives its first match. -/
theorem controlIn?_spec (h : page.SearchesBelow meaning) : ∀ controls : List String,
    (∀ control, page.Tries meaning controls i control → meaning.valid control) →
      (∃ n control, page.controlIn? i controls = .ok (some n) ∧
        page.Tries meaning controls i control ∧ page.HasMatch meaning i control n ∧
        ∀ m, page.HasMatch meaning i control m → n.index ≤ m.index) ∨
      page.controlIn? i controls = .ok none ∧
        ∀ control ∈ controls, ∀ m, ¬page.HasMatch meaning i control m
  | [], _ => .inr ⟨rfl, nofun⟩
  | control :: rest, valid => by
    obtain ⟨found, ok, mem⟩ := @exists_foundWithin _ _ i _ h (valid control tries_head)
    have ascending := ascending_of_foundWithin ok
    unfold controlIn?
    rw [ok]
    cases found with
    | cons n more =>
      refine .inl ⟨n, control, rfl, tries_head, (mem n).mp List.mem_cons_self, fun m matched => ?_⟩
      rcases List.mem_cons.mp ((mem m).mpr matched) with rfl | later
      · exact Nat.le_refl _
      · exact Nat.le_of_lt (List.rel_of_pairwise_cons ascending later)
    | nil =>
      have none : ∀ m, ¬page.HasMatch meaning i control m := fun m matched =>
        nomatch (mem m).mpr matched
      rcases controlIn?_spec h rest fun later tried => valid later (tried.cons none) with
        ⟨n, later, e, tried, first⟩ | ⟨e, lacking⟩
      · exact .inl ⟨n, later, e, tried.cons none, first⟩
      · exact .inr ⟨e, List.forall_mem_cons.mpr ⟨none, lacking⟩⟩

/-- A control that is tried and not valid makes the call fail. -/
theorem controlIn?_error (h : page.SearchesBelow meaning) (owns : page.elements i ≠ [])
    (invalid : ¬meaning.valid control) : ∀ controls : List String,
    page.Tries meaning controls i control → ∃ e, page.controlIn? i controls = .error (.search e)
  | [], tried => by
    obtain ⟨before, after, split, -⟩ := tried
    cases before <;> cases split
  | first :: rest, tried => by
    unfold controlIn?
    by_cases valid : meaning.valid first
    · obtain rfl | ⟨none, later⟩ := tried.of_cons
      · exact absurd valid invalid
      · obtain ⟨found, ok, mem⟩ := @exists_foundWithin _ _ i _ h valid
        have nothing : found = [] := List.eq_nil_iff_forall_not_mem.mpr fun n hit => none n ((mem n).mp hit)
        rw [ok, nothing]
        exact controlIn?_error h owns invalid rest later
    · obtain ⟨e, fails⟩ := h.foundWithin_error owns valid
      exact ⟨e, by rw [fails]; rfl⟩

theorem targetIn?_of_elements_nil (h : page.SearchesBelow meaning) (bare : page.elements i = [])
    (controls : List String) : page.targetIn? controls i = .ok none := by
  rw [targetIn?, h.controlIn?_of_elements_nil bare controls, bare]
  rfl

/-- In an instance that owns a node, with valid controls, there is a target. -/
theorem targetIn?_spec (h : page.SearchesBelow meaning) (owns : page.elements i ≠ [])
    (valid : ∀ control, page.Tries meaning controls i control → meaning.valid control) :
    ∃ n, page.targetIn? controls i = .ok (some n) ∧ page.IsTarget meaning controls i n := by
  unfold targetIn?
  rcases h.controlIn?_spec controls valid with ⟨n, control, e, tried, matched, first⟩ | ⟨e, lacking⟩
  · exact ⟨n, by rw [e]; rfl, .control tried matched first⟩
  · obtain ⟨n, rest, elements⟩ := List.exists_cons_of_ne_nil owns
    exact ⟨n, by rw [e, elements]; rfl, .element lacking elements⟩

theorem targetIn?_error (h : page.SearchesBelow meaning) (owns : page.elements i ≠ [])
    (tried : page.Tries meaning controls i control) (invalid : ¬meaning.valid control) :
    ∃ e, page.targetIn? controls i = .error (.search e) := by
  obtain ⟨e, fails⟩ := h.controlIn?_error owns invalid controls tried
  exact ⟨e, by rw [targetIn?, fails]; rfl⟩

end SearchesBelow

end Page

open Run

namespace Engine

variable {functions : Functions} {engine : Engine}

/-! ### Calls -/

theorem firstControl_apply (setting : Setting) (i : InstanceId) :
    ∀ (controls : List String) (p : Progress), (Functions.firstControl setting i controls p).1 =
      (setting.page.controlIn? i controls).mapError .error
  | [], _ => rfl
  | control :: rest, p => by
    obtain ⟨identities, searched⟩ := ofSearch_apply (setting.page.searchWithin_finds control [i]) p
    unfold Functions.firstControl Page.controlIn?
    rw [bind_apply, searched]
    cases setting.page.foundWithin control [i] with
    | error x => rfl
    | ok found =>
      cases found with
      | nil => exact firstControl_apply setting i rest { p with identities }
      | cons n more => rfl

theorem interactionTarget_apply (setting : Setting) (i : InstanceId) (p : Progress) :
    (Functions.interactionTarget setting i p).1 =
      (setting.page.targetIn? setting.config.interactionControls i).mapError .error := by
  have controls := firstControl_apply setting i setting.config.interactionControls p
  unfold Functions.interactionTarget Page.targetIn?
  rw [bind_apply]
  generalize Functions.firstControl setting i setting.config.interactionControls p = run at controls
  obtain ⟨found, q⟩ := run
  obtain rfl : found = _ := controls
  have elements := (setting.page.elementsOf_answers i _ q.identities.grows_empty).2
  cases setting.page.controlIn? i setting.config.interactionControls with
  | error x => rfl
  | ok control? =>
    cases control? with
    | some n => rfl
    | none => exact congrArg (fun ns => Except.ok (List.head? ns)) elements

/-- What a call to interact with a component comes to. -/
def interactionIn (page : Page) (controls : List String) (i : InstanceId) : Except Halt Outcome :=
  ((page.targetIn? controls i).map fun n? => .value (Functions.handle? n?)).mapError .error

/-- From any progress, a call to interact with a component is settled by the page and the controls. -/
theorem perform_interactionElement (setting : Setting)
    (named : functions.find? "interactionElement" = some Functions.interactionElement)
    (allowComponents : Bool) (args : List Json) (i : InstanceId) (p : Progress) :
    (perform setting functions allowComponents (.call ⟨"interactionElement", args⟩)
      (.components [i]) p).1 = interactionIn setting.page setting.config.interactionControls i := by
  unfold perform callFunction interactionIn
  dsimp only
  rw [named]
  show (((Functions.interactionTarget setting i >>= fun t => pure (Functions.handle? t)) >>= fun v =>
    pure (Outcome.value v)) p).1 = _
  rw [map_apply, map_apply, interactionTarget_apply]
  cases setting.page.targetIn? setting.config.interactionControls i <;> rfl

theorem fetchWithin_interactionElement
    (named : engine.functions.find? "interactionElement" = some Functions.interactionElement)
    (limit now : Nat) (args : List Json) (i : InstanceId) :
    (engine.fetchWithin limit now ⟨.components [i], .call ⟨"interactionElement", args⟩⟩).1 =
      interactionIn engine.page engine.config.interactionControls i :=
  perform_interactionElement (engine.settingAt now) named engine.config.allowComponentResults args i
    (engine.start now)

/-- **A call on a component gives its first control.** On a page searched as documents are, the call gives
null exactly when the component has no element. If it has one, and all controls that are tried are
valid, it gives the first match, in document order, of the first control with a match in the
component, or the component's first element if no control has one; a control that is tried and not
valid makes it fail. So what it gives otherwise is always in an element of the component. -/
theorem fetchWithin_target {meaning : SelectorMeaning} (h : engine.page.SearchesBelow meaning)
    (named : engine.functions.find? "interactionElement" = some Functions.interactionElement)
    (limit now : Nat) (args : List Json) (i : InstanceId) :
    let controls := engine.config.interactionControls
    let answer :=
      (engine.fetchWithin limit now ⟨.components [i], .call ⟨"interactionElement", args⟩⟩).1
    (answer = .ok (.value .null) ↔ engine.page.elements i = []) ∧
      (engine.page.elements i ≠ [] →
        ((∀ control, engine.page.Tries meaning controls i control → meaning.valid control) →
          ∃ n, answer = .ok (.value (ResultSet.node n).toJson) ∧
            engine.page.IsTarget meaning controls i n) ∧
        ((∃ control, engine.page.Tries meaning controls i control ∧ ¬meaning.valid control) →
          ∃ e, answer = .error (.error (.search e)))) ∧
      ∀ o, answer = .ok o → o = .value .null ∨ ∃ n, o = .value (ResultSet.node n).toJson ∧
        ∃ e ∈ engine.page.elements i, engine.page.isWithin n e = true := by
  intro controls answer
  have same : answer = interactionIn engine.page controls i :=
    fetchWithin_interactionElement named limit now args i
  rw [same]
  unfold interactionIn
  by_cases bare : engine.page.elements i = []
  · rw [h.targetIn?_of_elements_nil bare controls]
    refine ⟨⟨fun _ => bare, fun _ => rfl⟩, fun owns => absurd bare owns, fun o e => ?_⟩
    exact .inl (Except.ok.inj e).symm
  · refine ⟨⟨fun null => ?_, fun none => absurd none bare⟩, fun _ => ⟨fun valid => ?_, ?_⟩, fun o e => ?_⟩
    · -- a call that gives anything gives a handle, and a handle is not null
      rcases Page.targetIn?_cases bare controls with ⟨n, found, -⟩ | ⟨_, _, _, _, _, fails⟩
      · rw [found] at null
        cases null
      · rw [fails] at null
        cases null
    · obtain ⟨n, found, target⟩ := h.targetIn?_spec bare valid
      exact ⟨n, by rw [found]; rfl, target⟩
    · rintro ⟨control, tried, invalid⟩
      obtain ⟨x, fails⟩ := h.targetIn?_error bare tried invalid
      exact ⟨x, by rw [fails]; rfl⟩
    · rcases Page.targetIn?_cases bare controls with ⟨n, found, inside⟩ | ⟨_, _, _, _, _, fails⟩
      · rw [found] at e
        exact .inr ⟨n, (Except.ok.inj e).symm, inside⟩
      · rw [fails] at e
        cases e

/-- In the first row the bold word is the target: the item is before it in the document, but its control is
behind in the list. -/
theorem fetchWithin_target_rows : ∃ p, rows.load = .ok p ∧ p.toPage.SearchesBelow p.meaning ∧
    let controls := ["button", "b", "li"]
    let engine := ofPage p.toPage { EngineConfig.default with interactionControls := controls }
    let answer := (engine.fetchWithin 0 0 ⟨.components [⟨2⟩], .call ⟨"interactionElement", []⟩⟩).1
    answer = .ok (.value (ResultSet.node ⟨6⟩).toJson) ∧
      ∃ n, answer = .ok (.value (ResultSet.node n).toJson) ∧
        p.toPage.IsTarget p.meaning controls ⟨2⟩ n := by
  have known : (rows.load.toOption.map fun p =>
      (p.toPage.elements ⟨2⟩, (p.toPage.targetIn? ["button", "b", "li"] ⟨2⟩).toOption)) =
        some ([⟨5⟩], some (some ⟨6⟩)) := by decide +kernel
  obtain ⟨p, loaded, known⟩ := exists_ok_of_map known
  rw [Prod.mk.injEq, toOption_some_iff] at known
  obtain ⟨owned, target⟩ := known
  have below := Fixture.searchesBelow loaded
  have owns : p.toPage.elements ⟨2⟩ ≠ [] := owned ▸ List.cons_ne_nil _ _
  refine ⟨p, loaded, below, ?_⟩
  intro controls engine answer
  have valid : ∀ control, p.toPage.Tries p.meaning controls ⟨2⟩ control → p.meaning.valid control := by
    rintro control ⟨before, after, split, -⟩
    have readable : ∀ c ∈ controls, (Style.read? c.toList).isSome = true := by decide +kernel
    exact readable control (split ▸ List.mem_append_right _ List.mem_cons_self)
  have named : engine.functions.find? "interactionElement" = some Functions.interactionElement := rfl
  have calls := @fetchWithin_target engine p.meaning below named 0 0 [] ⟨2⟩
  refine ⟨?_, (calls.2.1 owns).1 valid⟩
  have same : answer = interactionIn p.toPage controls ⟨2⟩ :=
    fetchWithin_interactionElement named 0 0 [] ⟨2⟩
  rw [same, interactionIn, target]
  rfl

end Engine

end PageQuery

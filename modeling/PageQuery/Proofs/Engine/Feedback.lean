/-
# Results fed back as contexts

A query can be chained onto another in two ways: the first fetcher stands as the context of the second,
or the results of the first are written as JSON and read back as a context. Both anchor the second
operation at the same place. In the first way the results become an anchor in memory, in the second
they are written, read back, and made an anchor as any context is; on the way the collection of one
node changes into a node and back.

What a query gives is of the decoder's range if the handles that the page leads to are: a selector has
segments, so that no handle it starts from is given back without being found.

Key definitions: `Page.HandlesFit`, `Engine.Follows`.
Key theorems: `Engine.outcome_perform_fits`, `Engine.normalizeBy_toContext`,
`Engine.outcome_resolve_chained`, `Engine.fetchWithin_fed_back`.
-/
import PageQuery.Page.Table
import PageQuery.Proofs.Engine.History
import PageQuery.Proofs.Engine.Steps
import PageQuery.Proofs.Query.Encoding
import PageQuery.Proofs.Selector.Concatenation

namespace PageQuery

open Run

/-! ### Handles of a page -/

/-- The handles that the page leads to are of 64 bits. -/
structure Page.HandlesFit (page : Page) : Prop where
  found : ∀ {scope : NodeId} {selector : String} {nodes : List NodeId},
    page.search scope selector = .ok nodes → ∀ n ∈ nodes, n.Fits
  host : ∀ {n : NodeId} {i : InstanceId}, page.host? n = some i → i.Fits
  owner : ∀ {i j : InstanceId}, page.owners.next i = some j → j.Fits

namespace Page

variable {page : Page} {matcher : PropertyMatcher} {query : ComponentQuery}

theorem mem_of_mem_fresh {i : InstanceId} : ∀ {seen : List IdentityKey} {chain : List InstanceId},
    i ∈ page.fresh seen chain → i ∈ chain
  | seen, j :: above, h => by
    rw [fresh] at h
    split_ifs at h
    · cases h
    · exact List.mem_cons.mpr ((List.mem_cons.mp h).imp_right mem_of_mem_fresh)

theorem mem_of_mem_climbs {i : InstanceId} : ∀ {seen : List IdentityKey} {nodes : List NodeId},
    i ∈ (page.climbs seen nodes).flatten → ∃ n ∈ nodes, i ∈ page.hostChain n
  | seen, n :: rest, h => by
    rw [climbs, List.flatten_cons, List.mem_append] at h
    rcases h with h | h
    · exact ⟨n, List.mem_cons_self, mem_of_mem_fresh h⟩
    · obtain ⟨m, hm, h⟩ := mem_of_mem_climbs h
      exact ⟨m, List.mem_cons_of_mem n hm, h⟩

namespace HandlesFit

theorem hostChain (fits : page.HandlesFit) {n : NodeId} : ∀ i ∈ page.hostChain n, i.Fits := by
  rw [Page.hostChain]
  cases e : page.host? n with
  | none => nofun
  | some host =>
    have above := page.owners.forall_mem_follow (fun _ _ => fits.owner) (page.owners.rank host) host
    exact List.forall_mem_cons.mpr ⟨fits.host e, above⟩

theorem outline (fits : page.HandlesFit) : ∀ i ∈ page.outline, i.Fits := by
  intro i hi
  obtain ⟨n, -, h⟩ := mem_of_mem_climbs ((flatMap_reverse_perm _).mem_iff.mp hi)
  exact fits.hostChain i h

theorem foundWithin (fits : page.HandlesFit) {selector : String} {instances : List InstanceId}
    {nodes : List NodeId} (h : page.foundWithin selector instances = .ok nodes) : ∀ n ∈ nodes, n.Fits := by
  intro n hn
  obtain ⟨-, -, -, scope, hits, searched, hit⟩ := of_mem_foundWithin h hn
  exact fits.found searched n hit

end HandlesFit

/-- In a page of tables, handles fit if the numbers in the tables do. -/
theorem ofTables_handlesFit {root : NodeId} {nodes : Array TableNode} {instances : Array TableInstance}
    (size : nodes.size ≤ 2 ^ 64) (hosts : ∀ n ∈ nodes, ∀ i ∈ n.host?, i < 2 ^ 64)
    (owners : ∀ i ∈ instances, ∀ j ∈ i.parent?, j < 2 ^ 64) :
    (Page.ofTables root nodes instances).HandlesFit where
  found := by
    intro scope selector found h n hn
    have h : searchTable nodes (Links.ofNodeTable (nodes.map (·.parent?))) root scope selector =
      .ok found := h
    unfold searchTable at h
    split_ifs at h
    cases h
    obtain ⟨k, hk, rfl⟩ := List.mem_map.mp (List.mem_of_mem_filter hn)
    have lt : k < nodes.size := List.mem_range.mp hk
    exact lt.trans_le size
  host := by
    intro n i h
    obtain ⟨k, entry, rfl⟩ := Option.map_eq_some_iff.mp h
    obtain ⟨node, here, entry⟩ := Option.bind_eq_some_iff.mp entry
    exact hosts node (Array.mem_of_getElem? here) k entry
  owner := by
    intro i j h
    obtain ⟨k, leads, rfl⟩ := Option.map_eq_some_iff.mp h
    have entry := Links.eq_of_ofTable_next leads
    rw [Array.getElem?_map] at entry
    obtain ⟨inst, here, entry⟩ := Option.map_eq_some_iff.mp entry
    exact owners inst (Array.mem_of_getElem? here) k entry

end Page

/-- The handles reached are of 64 bits. -/
def Reached.Fits : Reached → Prop
  | .root => True
  | .nodes ns => ∀ n ∈ ns, n.Fits
  | .components is => ∀ i ∈ is, i.Fits

namespace Engine

variable {setting : Setting} {functions : Functions} {query : Query} {selector : Selector}

/-! ### What queries give is of the decoder's range -/

section reached

variable {page : Page} {matcher : PropertyMatcher}

theorem lead_fits (fits : page.HandlesFit) : ∀ {segment : Segment} {reached next : Reached},
    lead page matcher segment reached = .ok next → next.Fits
  | .structural _, .root, _, h => by
    obtain ⟨ns, e, rfl⟩ := map_ok_iff.mp h
    exact fits.found (mapError_ok_iff.mp e)
  | .structural _, .nodes _, _, h => by
    obtain ⟨_, e, rfl⟩ := map_ok_iff.mp h
    obtain ⟨hits, all, rfl⟩ := map_ok_iff.mp (mapError_ok_iff.mp e)
    intro n hn
    obtain ⟨base, -, here, e, hn⟩ := (mem_of_collect all n).mp (NodeId.mem_ascending.mp hn)
    exact fits.found e n hn
  | .structural _, .components _, _, h => by
    obtain ⟨ns, e, rfl⟩ := map_ok_iff.mp h
    exact fits.foundWithin e
  | .component _, .root, _, h => by
    obtain ⟨is, e, rfl⟩ := map_ok_iff.mp h
    exact fun i hi => fits.outline i ((Page.mem_of_descendants e).mp hi).1
  | .component _, .nodes _, _, h => by
    obtain ⟨is, e, rfl⟩ := map_ok_iff.mp h
    exact fun i hi => fits.outline i ((Page.mem_of_belowNodes e).mp hi).1
  | .component _, .components _, _, h => by
    obtain ⟨is, e, rfl⟩ := map_ok_iff.mp h
    exact fun i hi => fits.outline i ((Page.mem_of_descendants e).mp hi).1

/-- What segments lead to was found, wherever they started. -/
theorem leadAll_fits (fits : page.HandlesFit) : ∀ {segments : List Segment} {reached next : Reached},
    segments ≠ [] → leadAll page matcher segments reached = .ok next → next ≠ .root ∧ next.Fits
  | [segment], _, _, hs, h => by
    refine ⟨leadAll_ne_root hs h, ?_⟩
    obtain ⟨middle, e, rest⟩ := bind_ok_iff.mp h
    exact Except.ok.inj rest ▸ lead_fits fits e
  | _ :: second :: rest, _, _, _, h => by
    obtain ⟨middle, -, h⟩ := bind_ok_iff.mp h
    exact leadAll_fits fits (List.cons_ne_nil second rest) h

theorem itemsOf_fit (root : NodeId) : ∀ {reached : Reached}, reached ≠ .root → reached.Fits →
    ∀ r ∈ itemsOf root reached, r.Fits
  | .root, away, _, _, _ => absurd rfl away
  | .nodes nodes, _, fits, r, hr => by
    obtain ⟨n, hn, rfl⟩ := List.mem_map.mp hr
    exact List.forall_mem_singleton.mpr (fits n hn)
  | .components components, _, fits, r, hr => by
    obtain ⟨i, hi, rfl⟩ := List.mem_map.mp hr
    exact List.forall_mem_singleton.mpr (fits i hi)

theorem shape_fits (query : Query) {items : List ResultSet} (fits : ∀ r ∈ items, r.Fits) :
    (shape query items).Fits := by
  rcases shape_cases query items with ⟨-, e⟩ | ⟨-, e | mem⟩
  · exact e ▸ ResultSet.allFit_iff.mpr fits
  · exact e ▸ trivial
  · exact fits _ mem

end reached

theorem outcome_runFrom_fits (fits : setting.page.HandlesFit) (some : selector.segments ≠ [])
    {start : Reached} {r : ResultSet} (h : outcome (runFrom setting query selector start) = .ok r) :
    r.Fits := by
  have steps : outcome (runFrom setting query selector start) =
      (outcome (runSegments setting selector.segments start)).map fun reached =>
        shape query (itemsOf setting.page.root reached) :=
    outcome_map _ (runSegments_settles selector.segments start)
  rw [steps, outcome_runSegments] at h
  obtain ⟨next, e, rfl⟩ := map_ok_iff.mp h
  obtain ⟨away, here⟩ := leadAll_fits fits some (mapError_ok_iff.mp e)
  exact shape_fits query (itemsOf_fit setting.page.root away here)

mutual

theorem outcome_runQuery_fits (fits : setting.page.HandlesFit) (some : selector.segments ≠ []) :
    ∀ (anchor : Anchor) {r : ResultSet},
      outcome (runQuery setting query selector anchor) = .ok r → r.Fits
  | .null, _, h => by cases h; trivial
  | .root, _, h => outcome_runFrom_fits fits some h
  | .nodes _, _, h => outcome_runFrom_fits fits some h
  | .components _, _, h => outcome_runFrom_fits fits some h
  | .array items, _, h => by
    rw [outcome_runQuery_array] at h
    obtain ⟨rs, all, rfl⟩ := map_ok_iff.mp h
    exact outcome_runQueryEach_fits fits some items all

theorem outcome_runQueryEach_fits (fits : setting.page.HandlesFit) (some : selector.segments ≠ []) :
    ∀ (items : List Anchor) {rs : List ResultSet},
      each (fun a => outcome (runQuery setting query selector a)) items = .ok rs → ResultSet.AllFit rs
  | [], _, h => by cases h; trivial
  | a :: rest, _, h => by
    obtain ⟨r, e, h⟩ := bind_ok_iff.mp h
    obtain ⟨rs, all, rfl⟩ := map_ok_iff.mp h
    exact ⟨outcome_runQuery_fits fits some a e, outcome_runQueryEach_fits fits some rest all⟩

end

/-- What a query comes to is a result set of the decoder's range. -/
theorem outcome_perform_fits (fits : setting.page.HandlesFit) {allowComponents : Bool} {anchor : Anchor}
    {o : Outcome}
    (h : outcome (perform setting functions allowComponents (.query query) anchor) = .ok o) :
    ∃ r, o = .results r ∧ r.Fits := by
  rw [outcome_perform_execute] at h
  obtain ⟨r, e, rfl⟩ := map_ok_iff.mp h
  refine ⟨r, rfl, ?_⟩
  by_cases null : anchor = .null
  · subst null
    cases e
    trivial
  · rw [outcome_executeQuery allowComponents query null] at e
    obtain ⟨selector, parsed, e⟩ := bind_ok_iff.mp e
    have some := Selector.segments_ne_nil (mapError_ok_iff.mp parsed)
    unfold runParsed at e
    split at e
    · cases e
    · exact outcome_runQuery_fits fits some anchor e

/-! ### The two ways to chain -/

section contexts

variable {again : Json → Run Anchor}

mutual

/-- The context that a result set serves as is anchored where the result set is. -/
theorem normalizeBy_toContext : ∀ r : ResultSet,
    normalizeBy setting functions again r.toContext = pure (.ofResults r)
  | .null => rfl
  | .nodes [] => rfl
  | .nodes [_] => rfl
  | .nodes (_ :: _ :: _) => rfl
  | .components _ => rfl
  | .array items => by
    rw [ResultSet.toContext, normalizeBy, normalizeEachBy_itemsToContext items, pure_bind,
      Anchor.ofResults]

theorem normalizeEachBy_itemsToContext : ∀ items : List ResultSet,
    normalizeEachBy setting functions again (ResultSet.itemsToContext items) =
      pure (Anchor.ofEachResult items)
  | [] => rfl
  | r :: rest => by
    rw [ResultSet.itemsToContext, normalizeEachBy, normalizeBy_toContext r,
      normalizeEachBy_itemsToContext rest, pure_bind, pure_bind, Anchor.ofEachResult]

end

end contexts

/-- An operation chained onto a fetcher runs where the outcome of the fetcher is anchored. -/
theorem outcome_resolve_chained (settled : functions.Settled)
    (allows : setting.config.allowComponentResults = true) (limit : Nat) (f : Fetcher)
    (operation : Operation) :
    outcome (resolve setting functions limit ⟨f.toContext, operation⟩) =
      (outcome (resolve setting functions limit f)).bind fun o =>
        (outcome (anchorOf (reread setting functions limit) o)).bind fun anchor =>
          outcome (perform setting functions true operation anchor) := by
  rw [outcome_resolve settled, outcome_resolve settled, allows, Fetcher.toContext,
    outcome_normalizeBy_fetcher settled (reread_settles settled limit)]
  cases outcome (normalizeBy setting functions (reread setting functions limit) f.context) with
  | error h => rfl
  | ok anchor =>
    show Except.bind (Except.bind (outcome (perform setting functions true f.operation anchor)) _) _ =
      Except.bind (outcome (perform setting functions true f.operation anchor)) _
    cases outcome (perform setting functions true f.operation anchor) <;> rfl

/-- An operation in the context that results serve as runs where the results are anchored. -/
theorem outcome_resolve_toContext (settled : functions.Settled) (limit : Nat) (r : ResultSet)
    (operation : Operation) :
    outcome (resolve setting functions limit ⟨r.toContext, operation⟩) =
      outcome (perform setting functions setting.config.allowComponentResults operation
        (.ofResults r)) := by
  rw [outcome_resolve settled, normalizeBy_toContext]
  rfl

/-- At a moment of its own, an engine that differs from another at most in what fetches leave behind. -/
structure Follows (later : Engine) (moment : Nat) (engine : Engine) (now : Nat) : Prop where
  reachable : later.Reachable
  renewed : later.renewed = engine.renewed
  steady : engine.functions.Steady now moment

theorem Reachable.follows {engine : Engine} (h : engine.Reachable) (now : Nat) :
    engine.Follows now engine now := ⟨h, rfl, engine.functions.steady_refl now⟩

theorem Follows.fetch {later engine : Engine} {moment now next : Nat} (h : later.Follows moment engine now)
    (limit : Nat) (f : Fetcher) (steady : engine.functions.Steady now next) :
    (later.fetchWithin limit moment f).2.Follows next engine now :=
  ⟨h.reachable.fetch limit moment f, h.renewed, steady⟩

/-- Whatever it fetched before, a fetch on an engine that follows comes to what one on the first does. -/
theorem Follows.fetchWithin_fst {later engine : Engine} {moment now : Nat}
    (h : later.Follows moment engine now) (limit : Nat) (f : Fetcher) :
    (later.fetchWithin limit moment f).1 =
      outcome (resolve (engine.settingAt now) engine.functions limit f) := by
  have continues : ContinuesFrom engine later := ⟨h.reachable.sound.1, h.renewed⟩
  have settled : engine.functions.Settled := continues.functions ▸ h.reachable.sound.2
  rw [continues.fetchWithin_fst settled]
  exact @outcome_resolve_moved now moment (engine.settingAt now) _ settled h.steady limit f

/-- **Results fed back are results chained.** On an engine that allows component results, a query
gives results or fails. If it gives results, their JSON reads back as a context, and an operation in
that context comes to what the operation chained onto the query does, be it a value or an error; if it
fails, the chain fails for the same reason. The fetches may follow each other in any order and take
place at moments of their own. -/
theorem fetchWithin_fed_back {engine : Engine} (reached : engine.Reachable)
    (allows : engine.config.allowComponentResults = true) (fits : engine.page.HandlesFit) {f : Fetcher}
    (asks : f.isQuery = true) (operation : Operation) (limit now : Nat) :
    match (engine.fetchWithin limit now f).1 with
    | .ok (.results r) => ∃ c, Context.ofJson? r.toJson = some c ∧
        ∀ (one other : Engine) (soon late : Nat),
          one.Follows soon engine now → other.Follows late engine now → ∀ more,
            (one.fetchWithin limit soon ⟨f.toContext, operation⟩).1 =
              (other.fetchWithin more late ⟨c, operation⟩).1
    | .ok (.value _) => False
    | .error h => ∀ (one : Engine) (soon : Nat), one.Follows soon engine now →
        (one.fetchWithin limit soon ⟨f.toContext, operation⟩).1 = .error h := by
  have settled := reached.sound.2
  have allowed : (engine.settingAt now).config.allowComponentResults = true := allows
  have chain := outcome_resolve_chained settled allowed limit f operation
  rw [Engine.fetchWithin_fst reached]
  cases e : outcome (resolve (engine.settingAt now) engine.functions limit f) with
  | error h =>
    intro one soon follows
    rw [follows.fetchWithin_fst, chain, e]
    rfl
  | ok o =>
    obtain ⟨r, rfl, handles⟩ : ∃ r, o = .results r ∧ r.Fits := by
      obtain ⟨context, query | call⟩ := f
      · rw [outcome_resolve settled] at e
        obtain ⟨anchor, -, e⟩ := bind_ok_iff.mp e
        exact outcome_perform_fits fits e
      · cases asks
    refine ⟨r.toContext, Context.ofJson?_toJson_results handles, ?_⟩
    intro one other soon late first second more
    rw [first.fetchWithin_fst, second.fetchWithin_fst, chain, e, outcome_resolve_toContext settled,
      allowed]
    rfl

theorem handlesFit_mirrorPage : mirrorPage.HandlesFit :=
  Page.ofTables_handlesFit (by decide) (by simp) (by simp)

/-- The list by its component, and the text of its elements a minute later. -/
theorem fetchWithin_fed_back_mirror :
    let config : EngineConfig := { EngineConfig.default with allowComponentResults := true }
    let engine : Engine := { ofPage mirrorPage config with matcher := Predicate.matches }
    let f : Fetcher := ⟨.root true, .query ⟨"@Menu", true, none⟩⟩
    ∃ r c, (engine.fetchWithin 1 0 f).1 = .ok (.results r) ∧ Context.ofJson? r.toJson = some c ∧
      (engine.fetchWithin 1 0 ⟨f.toContext, .call ⟨"text", []⟩⟩).1 =
        ((engine.fetchWithin 1 0 f).2.fetchWithin 0 60000 ⟨c, .call ⟨"text", []⟩⟩).1 := by
  intro config engine f
  have start : engine.Reachable := .start mirrorPage Predicate.matches config
  have fed := fetchWithin_fed_back start rfl handlesFit_mirrorPage (f := f) rfl (.call ⟨"text", []⟩) 1 0
  obtain ⟨o, e⟩ : ∃ o, (engine.fetchWithin 1 0 f).1 = .ok o := exists_ok_of_toBool (by decide +kernel)
  rw [e] at fed
  match o, fed with
  | .results r, ⟨c, read, same⟩ =>
    have first : engine.Follows 0 engine 0 := start.follows 0
    have second : (engine.fetchWithin 1 0 f).2.Follows 60000 engine 0 :=
      first.fetch 1 f Functions.builtin_steady
    exact ⟨r, c, e, read, same engine _ 0 60000 first second 0⟩

end Engine

end PageQuery

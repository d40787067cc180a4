/-
# Runs of a cache of parses

A cache is asked for texts one after another, some of them more than once and some without a parse. What it
holds then hangs on the texts alone (`Holds`): the parse of each that has one, once. Entries never move, so
that a place stands for one object as long as the cache lives, and a text is answered from one place however
often it is asked for. What fails leaves no trace.

Key definitions: `SelectorCache.Sound`, `SelectorCache.log`, `SelectorCache.Holds`.
Key theorems: `SelectorCache.getOrParse_cases`, `SelectorCache.getOrParse_fst`,
`SelectorCache.getElem?_of_log`, `SelectorCache.Holds.after`, `SelectorCache.log_parses_once`.
-/
import Mathlib.Data.Finset.Card
import PageQuery.Proofs.Selector.Concatenation
import PageQuery.Selector.Cache

namespace PageQuery

namespace SelectorCache

variable {c : SelectorCache} {text : String} {texts : List String}

/-! ### One call -/

theorem findFrom_eq_some : ∀ {place : Nat} {entries : List Selector} {hit : Nat × Selector},
    findFrom text place entries = some hit →
      ∃ i, hit.1 = place + i ∧ entries[i]? = some hit.2 ∧ hit.2.source = text
  | place, s :: rest, hit, h => by
    unfold findFrom at h
    split at h
    · next same =>
      cases h
      exact ⟨0, rfl, rfl, same⟩
    · obtain ⟨i, place, here, same⟩ := findFrom_eq_some h
      exact ⟨i + 1, by omega, here, same⟩

theorem find?_eq_some {hit : Nat × Selector} (h : c.find? text = some hit) :
    c.entries[hit.1]? = some hit.2 ∧ hit.2.source = text := by
  obtain ⟨i, place, here, same⟩ := findFrom_eq_some h
  rw [place, Nat.zero_add]
  exact ⟨here, same⟩

theorem findFrom_eq_none : ∀ {place : Nat} {entries : List Selector},
    findFrom text place entries = none → ∀ s ∈ entries, s.source ≠ text
  | _, [], _ => nofun
  | _, s :: rest, h => by
    unfold findFrom at h
    split at h
    · cases h
    · next differ => exact List.forall_mem_cons.mpr ⟨differ, findFrom_eq_none h⟩

/-- A call is answered from what is kept, or it fails, or it is the first for a text that parses. -/
theorem getOrParse_cases (c : SelectorCache) (text : String) :
    (∃ hit, c.find? text = some hit ∧ c.getOrParse text = (.ok hit, c)) ∨
    (∃ e, Selector.parse text = .error e ∧ c.getOrParse text = (.error e, c)) ∨
    ∃ s, c.find? text = none ∧ Selector.parse text = .ok s ∧
      c.getOrParse text = (.ok (c.size, s), ⟨c.entries ++ [s]⟩) := by
  unfold getOrParse
  cases found : c.find? text with
  | some hit => exact .inl ⟨hit, rfl, rfl⟩
  | none =>
    cases parsed : Selector.parse text with
    | error e => exact .inr (.inl ⟨e, rfl, rfl⟩)
    | ok s => exact .inr (.inr ⟨s, rfl, rfl, rfl⟩)

/-- What is kept for a text is its parse. -/
def Sound (c : SelectorCache) : Prop := ∀ s ∈ c.entries, Selector.parse s.source = .ok s

theorem sound_empty : empty.Sound := fun _ h => (nomatch h)

theorem Sound.parse_of_find? (h : c.Sound) {hit : Nat × Selector} (found : c.find? text = some hit) :
    Selector.parse text = .ok hit.2 := by
  obtain ⟨here, rfl⟩ := find?_eq_some found
  exact h _ (List.mem_of_getElem? here)

/-- A sound cache gives the parse of a text. -/
theorem getOrParse_fst (h : c.Sound) (text : String) :
    (c.getOrParse text).1.map Prod.snd = Selector.parse text := by
  obtain ⟨hit, found, call⟩ | ⟨e, failed, call⟩ | ⟨s, -, parsed, call⟩ := c.getOrParse_cases text
  · rw [call, h.parse_of_find? found]
    rfl
  · rw [call, failed]
    rfl
  · rw [call, parsed]
    rfl

theorem getOrParse_sound (h : c.Sound) (text : String) : (c.getOrParse text).2.Sound := by
  obtain ⟨hit, -, call⟩ | ⟨e, -, call⟩ | ⟨s, -, parsed, call⟩ := c.getOrParse_cases text
  · rwa [call]
  · rwa [call]
  · rw [call]
    intro t mem
    rcases List.mem_append.mp mem with old | new
    · exact h t old
    · obtain rfl := List.mem_singleton.mp new
      rwa [(Selector.parse_ok_iff.mp parsed).1]

/-! ### Runs -/

/-- The cache that a call leaves. -/
def after (c : SelectorCache) (text : String) : SelectorCache := (c.getOrParse text).2

def afterAll (c : SelectorCache) (texts : List String) : SelectorCache := texts.foldl after c

/-- The calls of a run, each with its answer: the place and the parse kept there, or why there is none. -/
def log : SelectorCache → List String → List (String × Except SelectorError (Nat × Selector))
  | _, [] => []
  | c, text :: rest => (text, (c.getOrParse text).1) :: log (c.after text) rest

/-- **But for the places, a log tells of each text what its parse is.** -/
theorem map_log : ∀ {texts : List String} {c : SelectorCache}, c.Sound →
    ((c.log texts).map fun call => (call.1, call.2.map Prod.snd)) =
      texts.map fun text => (text, Selector.parse text)
  | [], _, _ => rfl
  | text :: rest, c, h => by
    have next : (c.after text).Sound := getOrParse_sound h text
    rw [log, List.map_cons, List.map_cons, getOrParse_fst h, map_log next]

/-! ### Places -/

theorem entries_after (c : SelectorCache) (text : String) : c.entries <+: (c.after text).entries := by
  unfold after
  obtain ⟨hit, -, call⟩ | ⟨e, -, call⟩ | ⟨s, -, -, call⟩ := c.getOrParse_cases text
  · rw [call]
  · rw [call]
  · rw [call]
    exact List.prefix_append ..

theorem entries_afterAll : ∀ (c : SelectorCache) (texts : List String),
    c.entries <+: (c.afterAll texts).entries
  | _, [] => List.prefix_rfl
  | c, text :: rest => (c.entries_after text).trans (entries_afterAll (c.after text) rest)

/-- An answer is kept at the place that it names. -/
theorem getElem?_after {hit : Nat × Selector} (answer : (c.getOrParse text).1 = .ok hit) :
    (c.after text).entries[hit.1]? = some hit.2 ∧ hit.2.source = text := by
  unfold after
  obtain ⟨hit', found, call⟩ | ⟨e, -, call⟩ | ⟨s, -, parsed, call⟩ := c.getOrParse_cases text
  all_goals
    rw [call] at answer ⊢
    cases answer
  · exact find?_eq_some found
  · exact ⟨List.getElem?_concat_length, (Selector.parse_ok_iff.mp parsed).1⟩

/-- What was answered once stays at its place. -/
theorem getElem?_of_log : ∀ {texts : List String} {c : SelectorCache}, ∀ call ∈ c.log texts,
    ∀ {hit : Nat × Selector}, call.2 = .ok hit →
      (c.afterAll texts).entries[hit.1]? = some hit.2 ∧ hit.2.source = call.1
  | [], _ => nofun
  | text :: rest, c => by
    refine List.forall_mem_cons.mpr ⟨fun {hit} answer => ?_, fun call mem => getElem?_of_log call mem⟩
    obtain ⟨here, same⟩ := getElem?_after answer
    obtain ⟨more, all⟩ := (c.after text).entries_afterAll rest
    refine ⟨?_, same⟩
    show ((c.after text).afterAll rest).entries[hit.1]? = _
    rw [← all, List.getElem?_append_left (List.getElem?_eq_some_iff.mp here).1, here]

/-! ### What is held -/

/-- The cache holds the parse of each text that has one, once, and nothing else. -/
structure Holds (c : SelectorCache) (texts : List String) : Prop where
  mem_iff : ∀ s, s ∈ c.entries ↔ s.source ∈ texts ∧ Selector.parse s.source = .ok s
  distinct : (c.entries.map Selector.source).Nodup

namespace Holds

theorem empty : Holds .empty [] := ⟨by simp [SelectorCache.empty], List.nodup_nil⟩

theorem sound (h : c.Holds texts) : c.Sound := fun s mem => ((h.mem_iff s).mp mem).2

/-- What a call leaves holds its text too. -/
theorem after (h : c.Holds texts) (text : String) : (c.after text).Holds (texts ++ [text]) := by
  unfold SelectorCache.after
  obtain ⟨hit, found, call⟩ | ⟨e, failed, call⟩ | ⟨s, absent, parsed, call⟩ := c.getOrParse_cases text
  · -- the text was asked for before
    obtain ⟨here, rfl⟩ := find?_eq_some found
    have seen := ((h.mem_iff _).mp (List.mem_of_getElem? here)).1
    rw [call]
    refine ⟨fun t => ?_, h.distinct⟩
    rw [h.mem_iff, List.mem_append, List.mem_singleton]
    exact and_congr_left fun _ => ⟨.inl, fun either => either.elim id (· ▸ seen)⟩
  · rw [call]
    refine ⟨fun t => ?_, h.distinct⟩
    rw [h.mem_iff, List.mem_append, List.mem_singleton]
    refine and_congr_left fun parsed => ⟨.inl, fun either => either.resolve_right fun same => ?_⟩
    rw [same, failed] at parsed
    cases parsed
  · have source := (Selector.parse_ok_iff.mp parsed).1
    have new := findFrom_eq_none absent
    rw [call]
    refine ⟨fun t => ?_, ?_⟩
    · rw [List.mem_append, List.mem_append, h.mem_iff, List.mem_singleton, List.mem_singleton, or_and_right]
      refine or_congr_right ⟨?_, fun ⟨same, kept⟩ => ?_⟩
      · rintro rfl
        exact ⟨source, source ▸ parsed⟩
      · rw [same, parsed] at kept
        exact (Except.ok.inj kept).symm
    · rw [List.map_append, List.map_singleton, List.nodup_append]
      refine ⟨h.distinct, List.nodup_singleton _, fun old mem other same => ?_⟩
      obtain ⟨t, here, rfl⟩ := List.mem_map.mp mem
      rw [List.mem_singleton.mp same, source]
      exact new t here

theorem afterAll : ∀ {texts seen : List String} {c : SelectorCache}, c.Holds seen →
    (c.afterAll texts).Holds (seen ++ texts)
  | [], seen, _, h => (List.append_nil seen).symm ▸ h
  | text :: rest, seen, _, h => by
    rw [← List.singleton_append, ← List.append_assoc]
    exact Holds.afterAll (h.after text)

/-- As many parses are held as there are different texts that parse. -/
theorem size_eq (h : c.Holds texts) :
    c.size = (texts.filter fun text => (Selector.parse text).isOk).toFinset.card := by
  have held : (c.entries.map Selector.source).toFinset =
      (texts.filter fun text => (Selector.parse text).isOk).toFinset := by
    ext text
    rw [List.mem_toFinset, List.mem_toFinset, List.mem_filter, List.mem_map]
    constructor
    · rintro ⟨s, mem, rfl⟩
      obtain ⟨seen, parsed⟩ := (h.mem_iff s).mp mem
      exact ⟨seen, by rw [parsed]; rfl⟩
    · rintro ⟨seen, parses⟩
      cases parsed : Selector.parse text with
      | error e =>
        rw [parsed] at parses
        cases parses
      | ok s =>
        have source := (Selector.parse_ok_iff.mp parsed).1
        exact ⟨s, (h.mem_iff s).mpr ⟨source ▸ seen, source ▸ parsed⟩, source⟩
  rw [← held, List.toFinset_card_of_nodup h.distinct, List.length_map]
  rfl

/-- Places are equal exactly when the texts are for which they are kept. -/
theorem place_eq_iff (h : c.Holds texts) {p q : Nat} {s t : Selector} (hs : c.entries[p]? = some s)
    (ht : c.entries[q]? = some t) : p = q ↔ s.source = t.source := by
  constructor
  · rintro rfl
    rw [hs] at ht
    exact congrArg Selector.source (Option.some.inj ht)
  · intro same
    have there : (c.entries.map Selector.source)[p]? = (c.entries.map Selector.source)[q]? := by
      rw [List.getElem?_map, List.getElem?_map, hs, ht, Option.map_some, Option.map_some, same]
    refine (List.getElem?_inj ?_ h.distinct).mp there
    rw [List.length_map]
    exact (List.getElem?_eq_some_iff.mp hs).1

end Holds

/-! ### Failing calls -/

theorem after_of_failing (h : c.Sound) (fails : (Selector.parse text).isOk = false) : c.after text = c := by
  unfold after
  obtain ⟨hit, found, call⟩ | ⟨e, -, call⟩ | ⟨s, -, parsed, call⟩ := c.getOrParse_cases text
  · rw [h.parse_of_find? found] at fails
    cases fails
  · rw [call]
  · rw [parsed] at fails
    cases fails

theorem afterAll_of_failing (h : c.Sound) (fails : (Selector.parse text).isOk = false) :
    ∀ times : Nat, c.afterAll (List.replicate times text) = c
  | 0 => rfl
  | times + 1 => by
    show (c.after text).afterAll (List.replicate times text) = c
    rw [after_of_failing h fails, afterAll_of_failing h fails times]

/-- **A cache parses each text once, and that is all it does to a run**, in whatever order texts are asked
for and repeated. The answers are the parses; each is the object that stays at its place, and two come from one
place exactly if they are for one text. After any number of calls as many parses are held as different texts
were seen that have one. A text without a parse leaves the cache as it is, however often it is asked for. -/
theorem log_parses_once (texts : List String) :
    ((empty.log texts).map fun call => (call.1, call.2.map Prod.snd)) =
        (texts.map fun text => (text, Selector.parse text)) ∧
      (∀ call ∈ empty.log texts, ∀ hit, call.2 = .ok hit →
        (empty.afterAll texts).entries[hit.1]? = some hit.2 ∧
          ∀ call' ∈ empty.log texts, ∀ hit', call'.2 = .ok hit' → (hit.1 = hit'.1 ↔ call.1 = call'.1)) ∧
      (∀ n, (empty.afterAll (texts.take n)).size =
        ((texts.take n).filter fun text => (Selector.parse text).isOk).toFinset.card) ∧
      (∀ n, (empty.afterAll (texts.take n)).isEmpty = true ↔
        ∀ text ∈ texts.take n, (Selector.parse text).isOk = false) ∧
      ∀ n text, (Selector.parse text).isOk = false → ∀ times,
        (empty.afterAll (texts.take n)).afterAll (List.replicate times text) =
          empty.afterAll (texts.take n) := by
  have holds : ∀ seen, (empty.afterAll seen).Holds seen := fun seen => Holds.empty.afterAll
  refine ⟨map_log sound_empty, fun call mem hit answer => ?_, fun n => (holds _).size_eq, fun n => ?_,
    fun n text fails => ?_⟩
  · obtain ⟨here, same⟩ := getElem?_of_log call mem answer
    refine ⟨here, fun call' mem' hit' answer' => ?_⟩
    obtain ⟨here', same'⟩ := getElem?_of_log call' mem' answer'
    rw [(holds texts).place_eq_iff here here', same, same']
  · rw [isEmpty, List.isEmpty_iff_length_eq_zero]
    show (empty.afterAll (texts.take n)).size = 0 ↔ _
    rw [(holds _).size_eq, Finset.card_eq_zero, List.toFinset_eq_empty_iff, List.filter_eq_nil_iff]
    simp only [Bool.not_eq_true]
  · exact afterAll_of_failing (holds _).sound fails

/-- A text without a parse and one with a parse are asked for twice, and another one in between. -/
theorem log_parses_once_repeated :
    let texts := ["@", "ul", "@", "@A", "ul"]
    let list : Selector := ⟨"ul", [.structural "ul"]⟩
    ("ul", .ok (0, list)) ∈ empty.log texts ∧ (Selector.parse "@").isOk = false ∧
      (empty.afterAll (texts.take 1)).isEmpty = true ∧ (empty.afterAll (texts.take 5)).size = 2 ∧
      (∀ call ∈ empty.log texts, call.1 = "ul" → ∀ hit, call.2 = .ok hit → hit.1 = 0) ∧
      (empty.afterAll (texts.take 5)).afterAll (List.replicate 9 "@") =
        empty.afterAll (texts.take 5) := by
  intro texts list
  have answered : ("ul", .ok (0, list)) ∈ empty.log texts := by decide +kernel
  have fails : (Selector.parse "@").isOk = false := by decide +kernel
  obtain ⟨-, places, sizes, empties, failing⟩ := log_parses_once texts
  refine ⟨answered, fails, (empties 1).mpr ?_, (sizes 5).trans ?_, fun call mem same hit answer => ?_,
    failing 5 _ fails 9⟩
  · exact fun text mem => List.mem_singleton.mp mem ▸ fails
  · decide +kernel
  · exact ((places call mem hit answer).2 _ answered _ rfl).mpr same

end SelectorCache

end PageQuery

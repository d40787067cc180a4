/-
# Links that form finite chains

A link leads from a handle to at most one other. Each handle has a rank, and links lead to lower
ranks, so that following them comes to an end. The chain after a handle lists what following its
links passes through.

A table that gives each of finitely many numbers its link becomes links by ranking each number with
the length of its chain, a link that would lead to no lower rank being left out.

Key definitions: `Links`, `Links.after`, `Links.upward`, `Links.ofTable`.
Key theorems: `Links.after_eq`, `Links.mem_upward_iff`, `Links.ofTable_next`.
-/
import PageQuery.Page.Handle

namespace PageQuery

/-- Links with ranks that they lower. -/
structure Links (α : Type) where
  next : α → Option α
  rank : α → Nat
  descends : ∀ {a b : α}, next a = some b → rank b < rank a

namespace Links

variable {α : Type} (l : Links α)

/-- What following links from `a` passes through, at most so many of them. -/
def follow : Nat → α → List α
  | 0, _ => []
  | n + 1, a =>
    match l.next a with
    | none => []
    | some b => b :: follow n b

/-- What following links from `a` passes through, nearest first. -/
def after (a : α) : List α := l.follow (l.rank a) a

/-- The handle and what following its links passes through. -/
def upward (a : α) : List α := a :: l.after a

/-- The number of links from `a` to the end of its chain. -/
def distance (a : α) : Nat := (l.after a).length

theorem follow_eq_of_le {n m : Nat} {a : α} (hn : l.rank a ≤ n) (hm : l.rank a ≤ m) :
    l.follow n a = l.follow m a := by
  induction n generalizing m a with
  | zero =>
    cases m with
    | zero => rfl
    | succ m =>
      unfold follow
      cases h : l.next a with
      | none => rfl
      | some b => have := l.descends h; omega
  | succ n ih =>
    cases m with
    | zero =>
      unfold follow
      cases h : l.next a with
      | none => rfl
      | some b => have := l.descends h; omega
    | succ m =>
      unfold follow
      cases h : l.next a with
      | none => rfl
      | some b =>
        have := l.descends h
        simp only [List.cons.injEq, true_and]
        exact ih (by omega) (by omega)

/-- The chain after a handle is the handle its link leads to and the chain after that. -/
theorem after_eq (a : α) :
    l.after a = match l.next a with
      | none => []
      | some b => b :: l.after b := by
  unfold after
  cases h : l.next a with
  | none =>
    cases l.rank a with
    | zero => rfl
    | succ n => simp [follow, h]
  | some b =>
    have lower := l.descends h
    obtain ⟨n, hn⟩ : ∃ n, l.rank a = n + 1 := ⟨l.rank a - 1, by omega⟩
    rw [hn]
    simp only [follow, h, List.cons.injEq, true_and]
    exact l.follow_eq_of_le (by omega) (Nat.le_refl _)

theorem after_of_next_none {a : α} (h : l.next a = none) : l.after a = [] := by
  rw [after_eq, h]

theorem after_of_next {a b : α} (h : l.next a = some b) : l.after a = b :: l.after b := by
  rw [after_eq, h]

theorem next_of_after_eq_nil {a : α} (h : l.after a = []) : l.next a = none := by
  rw [after_eq] at h
  cases e : l.next a with
  | none => rfl
  | some b => rw [e] at h; cases h

theorem next_of_after_eq_cons {a b : α} {rest : List α} (h : l.after a = b :: rest) :
    l.next a = some b ∧ l.after b = rest := by
  rw [after_eq] at h
  cases e : l.next a with
  | none => rw [e] at h; cases h
  | some c =>
    rw [e] at h
    obtain ⟨rfl, rest⟩ := List.cons.inj h
    exact ⟨rfl, rest⟩

theorem distance_of_next_none {a : α} (h : l.next a = none) : l.distance a = 0 := by
  rw [distance, l.after_of_next_none h, List.length_nil]

theorem distance_of_next {a b : α} (h : l.next a = some b) : l.distance a = l.distance b + 1 := by
  rw [distance, l.after_of_next h, List.length_cons, distance]

/-- What holds wherever a link leads holds of what following links passes through. -/
theorem forall_mem_follow {P : α → Prop} (h : ∀ a b, l.next a = some b → P b) : ∀ (n : Nat) (a : α),
    ∀ b ∈ l.follow n a, P b
  | 0, _ => nofun
  | n + 1, a => by
    rw [follow]
    cases e : l.next a with
    | none => nofun
    | some b => exact List.forall_mem_cons.mpr ⟨h a b e, forall_mem_follow h n b⟩

/-- Going up from a handle is standing on it or going up from where its link leads. -/
theorem mem_upward_iff {a b : α} :
    b ∈ l.upward a ↔ b = a ∨ ∃ c, l.next a = some c ∧ b ∈ l.upward c := by
  unfold upward
  rw [List.mem_cons]
  cases h : l.next a with
  | none => simp [l.after_of_next_none h]
  | some c => simp [l.after_of_next h]

end Links

/-! ### Links from a table -/

namespace Links

/-- The number of links from `i` to the end of its chain in a table, at most `fuel`. -/
def chainLength (table : Array (Option Nat)) : Nat → Nat → Nat
  | 0, _ => 0
  | fuel + 1, i =>
    match table[i]? with
    | some (some j) => 1 + chainLength table fuel j
    | _ => 0

/-- The chain length of every number in a table. A chain that is longer than the table has a loop. -/
def chainLengths (table : Array (Option Nat)) : Array Nat :=
  Array.ofFn fun i : Fin table.size => chainLength table (table.size + 1) i.val

/-- Where the table leads from `i`, unless that is not closer to the end. -/
def tableNext (table : Array (Option Nat)) (lengths : Array Nat) (i : Nat) : Option Nat :=
  match table[i]? with
  | some (some j) => if lengths.getD j 0 < lengths.getD i 0 then some j else none
  | _ => none

theorem tableNext_lt {table : Array (Option Nat)} {lengths : Array Nat} {i j : Nat}
    (h : tableNext table lengths i = some j) : lengths.getD j 0 < lengths.getD i 0 := by
  unfold tableNext at h
  split at h
  · split at h
    · next lower => cases h; exact lower
    · cases h
  · cases h

/-- The links of a table of numbers. -/
def ofTable (table : Array (Option Nat)) : Links Nat :=
  let lengths := chainLengths table
  { next := tableNext table lengths
    rank := fun i => lengths.getD i 0
    descends := tableNext_lt }

theorem eq_of_ofTable_next {table : Array (Option Nat)} {i j : Nat}
    (h : (ofTable table).next i = some j) : table[i]? = some (some j) := by
  have h : tableNext table (chainLengths table) i = some j := h
  unfold tableNext at h
  split at h
  · next k e =>
    split at h
    · cases h; exact e
    · cases h
  · cases h

section falling

variable {table : Array (Option Nat)} {measure : Nat → Nat}

/-- Where a measure falls along every link, fuel beyond the measure does not matter. -/
theorem chainLength_eq_of_lt (falls : ∀ i j, table[i]? = some (some j) → measure j < measure i) :
    ∀ {n m i : Nat}, measure i < n → measure i < m → chainLength table n i = chainLength table m i
  | n + 1, m + 1, i, hn, hm => by
    unfold chainLength
    split
    · next j e =>
      have lower := falls i j e
      exact congrArg (1 + ·) (chainLength_eq_of_lt falls (by omega) (by omega))
    · rfl

theorem getD_chainLengths (i : Nat) :
    (chainLengths table).getD i 0 = chainLength table (table.size + 1) i := by
  by_cases h : i < table.size
  · simp [chainLengths, h]
  · simp [chainLengths, chainLength, h]

/-- Where a measure within the size of the table falls along every link, no link is left out. -/
theorem ofTable_next (falls : ∀ i j, table[i]? = some (some j) → measure j < measure i)
    (within : ∀ i < table.size, measure i ≤ table.size) (i : Nat) :
    (ofTable table).next i = table[i]?.join := by
  show tableNext table (chainLengths table) i = _
  unfold tableNext
  split
  · next j e =>
    have lower := falls i j e
    have here := within i (Array.getElem?_eq_some_iff.mp e).1
    have steps : chainLength table (table.size + 1) i = 1 + chainLength table (table.size + 1) j := by
      rw [chainLength, e]
      exact congrArg (1 + ·) (chainLength_eq_of_lt falls (by omega) (by omega))
    rw [getD_chainLengths, getD_chainLengths, steps, if_pos (by omega), e]
    rfl
  · next other =>
    match e : table[i]? with
    | none => rfl
    | some none => rfl
    | some (some j) => exact absurd e (other j)

end falling

/-- The same links between handles that stand for the numbers. -/
def relabel {α β : Type} (l : Links α) (into : α → β) (back : β → α)
    (back_into : ∀ a, back (into a) = a) : Links β where
  next b := (l.next (back b)).map into
  rank b := l.rank (back b)
  descends := by
    intro a b h
    obtain ⟨c, hc, rfl⟩ := Option.map_eq_some_iff.1 h
    rw [back_into]
    exact l.descends hc

/-- Links between nodes. -/
def ofNodeTable (table : Array (Option Nat)) : Links NodeId :=
  (ofTable table).relabel NodeId.mk NodeId.index fun _ => rfl

/-- Links between instances. -/
def ofInstanceTable (table : Array (Option Nat)) : Links InstanceId :=
  (ofTable table).relabel InstanceId.mk InstanceId.index fun _ => rfl

end Links

end PageQuery

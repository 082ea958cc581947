import Seyal.Program.Bytes

namespace Seyal.Program

/-! Programs that only load from a memory which others change between their loads. -/

/-- A load hands the word at an offset to the rest of the program. -/
inductive Reading (ω ε α : Type) where
  | done (outcome : Except ε α)
  | load (offset : Nat) (next : ω → Reading ω ε α)

namespace Reading

variable {σ ω ε α β : Type}

def bind : Reading ω ε α → (α → Reading ω ε β) → Reading ω ε β
  | .done (.ok value), rest => rest value
  | .done (.error error), _ => .done (.error error)
  | .load offset next, rest => .load offset fun word => (next word).bind rest

instance : Monad (Reading ω ε) where
  pure value := .done (.ok value)
  bind := bind

instance : MonadExceptOf ε (Reading ω ε) where
  throw error := .done (.error error)
  tryCatch body _ := body

def fromExcept (outcome : Except ε α) : Reading ω ε α := .done outcome

def word (offset : Nat) : Reading ω ε ω := .load offset pure

def wordsFrom (offset : Nat) : Nat → Reading ω ε (List ω)
  | 0 => pure []
  | count + 1 => do
      let first ← word offset
      let others ← wordsFrom (offset + 8) count
      return first :: others

section Ensures

variable [Preorder σ] (peek : σ → Nat → ω)

/-- However the memory moves on between the loads, the outcome meets the condition in the state it is reached in. -/
def Ensures (meets : Except ε α → σ → Prop) : Reading ω ε α → σ → Prop
  | .done outcome, state => meets outcome state
  | .load offset next, state => ∀ now, state ≤ now → Ensures meets (next (peek now offset)) now

variable {peek} {meets : Except ε α → σ → Prop} {reading : Reading ω ε α} {state : σ}

theorem Ensures.mono {weaker : Except ε α → σ → Prop} (ensures : Ensures peek meets reading state)
    (weaken : ∀ outcome now, state ≤ now → meets outcome now → weaker outcome now) :
    Ensures peek weaker reading state := by
  induction reading generalizing state with
  | done outcome => exact weaken outcome state (le_refl state) ensures
  | load offset next ih =>
      intro now after
      exact ih _ (ensures now after) fun outcome final finally_ => weaken outcome final (le_trans after finally_)

theorem Ensures.bind {more : Except ε β → σ → Prop} {rest : α → Reading ω ε β}
    (ensures : Ensures peek (fun outcome now =>
      match outcome with
      | .ok value => Ensures peek more (rest value) now
      | .error error => more (.error error) now) reading state) :
    Ensures peek more (reading >>= rest) state := by
  induction reading generalizing state with
  | done outcome =>
      cases outcome with
      | ok value | error error => exact ensures
  | load offset next ih => exact fun now after => ih _ (ensures now after)

theorem ensures_word (offset : Nat) :
    Ensures peek (fun (outcome : Except ε ω) now => state ≤ now ∧ outcome = .ok (peek now offset)) (word offset) state :=
  fun _ after => ⟨after, rfl⟩

/-- The words were loaded one after the other, each at some time since. -/
def Loaded (peek : σ → Nat → ω) (state now : σ) (offset count : Nat) (words : List ω) : Prop :=
  state ≤ now ∧ words.length = count ∧
    ∀ index < count, ∃ seen, state ≤ seen ∧ seen ≤ now ∧ words[index]? = some (peek seen (offset + 8 * index))

theorem Loaded.within {first now last : σ} {offset count : Nat} {words : List ω}
    (loaded : Loaded peek state now offset count words) (before : first ≤ state) (after : now ≤ last) :
    Loaded peek first last offset count words := by
  obtain ⟨since, length, each⟩ := loaded
  refine ⟨le_trans before (le_trans since after), length, fun index below => ?_⟩
  obtain ⟨seen, from_, upTo, here⟩ := each index below
  exact ⟨seen, le_trans before from_, le_trans upTo after, here⟩

theorem ensures_wordsFrom (offset count : Nat) :
    Ensures peek (fun (outcome : Except ε (List ω)) now =>
      ∃ words, outcome = .ok words ∧ Loaded peek state now offset count words) (wordsFrom offset count) state := by
  induction count generalizing offset state with
  | zero => exact ⟨[], rfl, le_refl _, rfl, nofun⟩
  | succ count ih =>
      refine Ensures.bind ((ensures_word offset).mono fun outcome first after loaded => ?_)
      obtain ⟨_, rfl⟩ := loaded
      refine Ensures.bind ((ih (offset + 8)).mono fun outcome now since found => ?_)
      obtain ⟨words, rfl, _, length, each⟩ := found
      refine ⟨peek first offset :: words, rfl, le_trans after since, by simp [length], fun index below => ?_⟩
      cases index with
      | zero => exact ⟨first, after, since, rfl⟩
      | succ index =>
          obtain ⟨seen, from_, upTo, here⟩ := each index (Nat.lt_of_succ_lt_succ below)
          refine ⟨seen, le_trans after from_, upTo, ?_⟩
          rw [List.getElem?_cons_succ, here, Nat.add_assoc, Nat.mul_add_one, Nat.add_comm 8]

end Ensures

end Reading

section Words

variable {α β : Type}

def chunks (size : Nat) : Nat → List α → List (List α)
  | 0, _ => []
  | count + 1, items => items.take size :: chunks size count (items.drop size)

variable {size : Nat} {groups : List (List α)}

theorem chunks_flatten (sizes : ∀ group ∈ groups, group.length = size) :
    chunks size groups.length groups.flatten = groups := by
  induction groups with
  | nil => rfl
  | cons group groups ih =>
      have length := sizes group List.mem_cons_self
      rw [List.length_cons, chunks, List.flatten_cons, List.take_left' length, List.drop_left' length,
        ih (List.forall_mem_cons.mp sizes).2]

def wordsOf (bytes : List UInt8) : List Nat := (chunks 8 (bytes.length / 8) bytes).map fromLe

def bytesOf (words : List Nat) : List UInt8 := words.flatMap (toLe 8)

theorem length_flatten_of_size (sizes : ∀ group ∈ groups, group.length = size) :
    groups.flatten.length = size * groups.length := by
  induction groups with
  | nil => rfl
  | cons group groups ih =>
      rw [List.flatten_cons, List.length_append, sizes group List.mem_cons_self, List.length_cons,
        ih (List.forall_mem_cons.mp sizes).2, Nat.mul_add_one, Nat.add_comm]

theorem chunks_of_flatten (sizes : ∀ group ∈ groups, group.length = size) (positive : 0 < size) :
    chunks size (groups.flatten.length / size) groups.flatten = groups := by
  rw [length_flatten_of_size sizes, Nat.mul_div_cancel_left _ positive, chunks_flatten sizes]

variable {groups : List (List UInt8)}

theorem wordsOf_flatten (sizes : ∀ group ∈ groups, group.length = 8) :
    wordsOf groups.flatten = groups.map fromLe := by
  rw [wordsOf, chunks_of_flatten sizes (by decide)]

theorem bytesOf_map_fromLe (sizes : ∀ group ∈ groups, group.length = 8) :
    bytesOf (groups.map fromLe) = groups.flatten := by
  rw [bytesOf, List.flatMap_map, List.flatMap_def]
  congr 1
  calc groups.map (fun group => toLe 8 (fromLe group)) = groups.map id :=
        List.map_congr_left fun group member => toLe_of_length (sizes group member)
    _ = groups := List.map_id _

end Words

end Seyal.Program

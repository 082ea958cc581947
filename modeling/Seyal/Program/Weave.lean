import Mathlib.Algebra.Order.BigOperators.Group.List
import Mathlib.Algebra.Order.Ring.Nat

namespace Seyal.Program

/-! Queues of chunks that are written, piece by piece, to one byte stream. -/

variable {ι α : Type}

/-- Something to be written to a stream, and how much of it has been. -/
structure Chunk (α : Type) where
  bytes : List α
  sent : Nat

namespace Chunk

def started (chunk : Chunk α) : List α := chunk.bytes.take chunk.sent

def rest (chunk : Chunk α) : List α := chunk.bytes.drop chunk.sent

theorem started_append_rest (chunk : Chunk α) : chunk.started ++ chunk.rest = chunk.bytes :=
  List.take_append_drop ..

end Chunk

def Untouched (queue : List (Chunk α)) : Prop := ∀ chunk ∈ queue, chunk.sent = 0

def begun : List (Chunk α) → List α
  | [] => []
  | front :: _ => front.started

/-- Only the front of the queue may have been started. -/
def Orderly (queue : List (Chunk α)) : Prop := Untouched queue.tail

variable {queue more : List (Chunk α)}

theorem begun_of_untouched (untouched : Untouched queue) : begun queue = [] := by
  cases queue with
  | nil => rfl
  | cons front rest => simp [begun, Chunk.started, untouched front (by simp)]

theorem Untouched.orderly (untouched : Untouched queue) : Orderly queue :=
  fun chunk member => untouched chunk (List.mem_of_mem_tail member)

theorem untouched_nil : Untouched ([] : List (Chunk α)) := by simp [Untouched]

theorem Untouched.append (untouched : Untouched queue) (fresh : Untouched more) :
    Untouched (queue ++ more) := by
  intro chunk member
  rcases List.mem_append.mp member with old | new
  · exact untouched chunk old
  · exact fresh chunk new

theorem Orderly.append (orderly : Orderly queue) (fresh : Untouched more) :
    Orderly (queue ++ more) := by
  cases queue with
  | nil => exact fresh.orderly
  | cons front rest => exact Untouched.append orderly fresh

theorem begun_append (fresh : Untouched more) :
    begun (queue ++ more) = begun queue := by
  cases queue with
  | nil => exact begun_of_untouched fresh
  | cons front rest => rfl

/-- The queue once `count` more bytes of its front are written. -/
def advanced (count : Nat) (front : Chunk α) (rest : List (Chunk α)) : List (Chunk α) :=
  if front.sent + count < front.bytes.length then { front with sent := front.sent + count } :: rest else rest

theorem advanced_of_lt {count : Nat} {front : Chunk α} {rest : List (Chunk α)}
    (partway : front.sent + count < front.bytes.length) :
    advanced count front rest = { front with sent := front.sent + count } :: rest := if_pos partway

theorem advanced_of_le {count : Nat} {front : Chunk α} {rest : List (Chunk α)}
    (whole : front.bytes.length ≤ front.sent + count) : advanced count front rest = rest :=
  if_neg (Nat.not_lt.mpr whole)

/-- What `count` more bytes of the front complete. -/
def completed (count : Nat) (front : Chunk α) : List (List α) :=
  if front.sent + count < front.bytes.length then [] else [front.bytes]

theorem begun_advanced (count : Nat) (front : Chunk α) {rest : List (Chunk α)} (fresh : Untouched rest) :
    (completed count front).flatten ++ begun (advanced count front rest) =
      front.started ++ front.rest.take count := by
  by_cases partway : front.sent + count < front.bytes.length
  · simp only [completed, advanced, if_pos partway, begun, Chunk.started, Chunk.rest,
      List.flatten_nil, List.nil_append]
    exact List.take_add
  · have whole : front.rest.take count = front.rest := by
      apply List.take_of_length_le
      simp only [Chunk.rest, List.length_drop]
      omega
    simp [completed, advanced, partway, begun_of_untouched fresh, whole, Chunk.started_append_rest]

theorem bytes_advanced (count : Nat) (front : Chunk α) (rest : List (Chunk α)) :
    completed count front ++ (advanced count front rest).map Chunk.bytes =
      front.bytes :: rest.map Chunk.bytes := by
  unfold completed advanced
  split <;> simp

theorem Untouched.orderly_advanced {rest : List (Chunk α)} (fresh : Untouched rest) (count : Nat)
    (front : Chunk α) : Orderly (advanced count front rest) := by
  unfold advanced
  split
  · exact fresh
  · exact fresh.orderly

/-- The items that came from one queue, in order. -/
def itemsOf [DecidableEq ι] (source : ι) (items : List (ι × List α)) : List (List α) :=
  (items.filter fun item => item.1 = source).map Prod.snd

@[simp] theorem itemsOf_nil [DecidableEq ι] (source : ι) :
    itemsOf source ([] : List (ι × List α)) = [] := rfl

@[simp] theorem itemsOf_append [DecidableEq ι] (source : ι) (items more : List (ι × List α)) :
    itemsOf source (items ++ more) = itemsOf source items ++ itemsOf source more := by
  simp [itemsOf]

theorem itemsOf_tagged [DecidableEq ι] (source other : ι) (whole : List (List α)) :
    itemsOf source (whole.map fun bytes => (other, bytes)) = if other = source then whole else [] := by
  induction whole with
  | nil => simp
  | cons head rest ih =>
      simp only [itemsOf] at ih ⊢
      by_cases same : other = source <;> simp_all

/-- The stream so far: whole items, then the written part of one queue. Every
other queue is untouched. -/
def Woven (queues : ι → List (Chunk α)) (items : List (ι × List α)) (written : List α) : Prop :=
  ∃ source, Orderly (queues source) ∧ (∀ other, other ≠ source → Untouched (queues other)) ∧
    written = items.flatMap Prod.snd ++ begun (queues source)

namespace Woven

variable {queues : ι → List (Chunk α)} {items : List (ι × List α)} {written : List α}

theorem orderly (woven : Woven queues items written) (source : ι) : Orderly (queues source) := by
  obtain ⟨current, orderly, others, -⟩ := woven
  by_cases same : source = current
  · exact same ▸ orderly
  · exact (others source same).orderly

theorem requeue {after : ι → List (Chunk α)} (woven : Woven queues items written)
    (kept : ∀ source, Orderly (queues source) →
      Orderly (after source) ∧ begun (after source) = begun (queues source))
    (fresh : ∀ source, Untouched (queues source) → Untouched (after source)) :
    Woven after items written := by
  obtain ⟨source, orderly, others, wrote⟩ := woven
  obtain ⟨stays, same⟩ := kept source orderly
  exact ⟨source, stays, fun other different => fresh other (others other different), by rw [wrote, same]⟩

theorem write [DecidableEq ι] (woven : Woven queues items written) {source : ι} {front : Chunk α}
    {rest : List (Chunk α)} (queued : queues source = front :: rest)
    (alone : ∀ other, other ≠ source → Untouched (queues other)) (count : Nat) :
    Woven (Function.update queues source (advanced count front rest))
      (items ++ (completed count front).map fun bytes => (source, bytes))
      (written ++ front.rest.take count) := by
  have fresh : Untouched rest := by
    have orderly := woven.orderly source
    rwa [queued] at orderly
  obtain ⟨current, -, others, wrote⟩ := woven
  have begins : begun (queues current) = front.started := by
    by_cases same : current = source
    · rw [same, queued]
      rfl
    · have idle : Untouched (queues source) := others source (Ne.symm same)
      rw [begun_of_untouched (alone current same)]
      rw [queued] at idle
      simp [Chunk.started, idle front (by simp)]
  refine ⟨source, ?_, fun other different => ?_, ?_⟩
  · simpa using fresh.orderly_advanced count front
  · rw [Function.update_of_ne different]
    exact alone other different
  · rw [Function.update_self, wrote, begins, List.append_assoc, List.flatMap_append, List.append_assoc]
    have whole : ((completed count front).map fun bytes => (source, bytes)).flatMap Prod.snd =
        (completed count front).flatten := by
      rw [List.flatMap_map, List.flatten_eq_flatMap]
      rfl
    rw [whole, begun_advanced count front fresh]

end Woven

end Seyal.Program

/-!
# Queues

First in, first out, in two lists: the front in order and the back reversed.
`Queue.toList` is what a queue holds, the oldest first.
-/

namespace BrokerProbe

structure Queue (α : Type) where
  front : List α
  back : List α
  size : Nat
  size_eq : size = front.length + back.length
  deriving Repr

namespace Queue

variable {α : Type}

def toList (queue : Queue α) : List α :=
  queue.front ++ queue.back.reverse

def empty : Queue α :=
  { front := [], back := [], size := 0, size_eq := rfl }

instance : Inhabited (Queue α) := ⟨empty⟩

def push (queue : Queue α) (item : α) : Queue α :=
  { front := queue.front
    back := item :: queue.back
    size := queue.size + 1
    size_eq := by
      have h := queue.size_eq
      simp only [List.length_cons]
      omega }

/-- Gives up the oldest item, if there is one; the back is turned over when the front runs out. -/
def pop (queue : Queue α) : Queue α :=
  match queue with
  | { front := _ :: front, back, size, size_eq } =>
      { front, back, size := size - 1,
        size_eq := by
          rw [size_eq, List.length_cons]
          omega }
  | { front := [], back, size, size_eq } =>
      { front := back.reverse.tail, back := [], size := size - 1,
        size_eq := by simp [size_eq] }

def drop (queue : Queue α) (count : Nat) : Queue α :=
  if count <= queue.front.length then
    { front := queue.front.drop count
      back := queue.back
      size := queue.front.length - count + queue.back.length
      size_eq := by simp }
  else
    { front := queue.back.reverse.drop (count - queue.front.length)
      back := []
      size := queue.back.length - (count - queue.front.length)
      size_eq := by simp }

/-!
# What the operations do to the items
-/

@[simp] theorem length_toList (queue : Queue α) : queue.toList.length = queue.size := by
  simp [toList, queue.size_eq]

@[simp] theorem size_empty : (empty : Queue α).size = 0 := rfl

@[simp] theorem size_push (queue : Queue α) (item : α) :
    (queue.push item).size = queue.size + 1 := rfl

@[simp] theorem toList_empty : (empty : Queue α).toList = [] := rfl

@[simp] theorem toList_push (queue : Queue α) (item : α) :
    (queue.push item).toList = queue.toList ++ [item] := by
  simp [toList, push]

@[simp] theorem toList_pop (queue : Queue α) : queue.pop.toList = queue.toList.tail := by
  obtain ⟨front, back, size, hsize⟩ := queue
  cases front with
  | nil => simp [pop, toList]
  | cons item rest => rfl

@[simp] theorem size_pop (queue : Queue α) : queue.pop.size = queue.size - 1 := by
  rw [<- length_toList, toList_pop, List.length_tail, length_toList]

@[simp] theorem toList_drop (queue : Queue α) (count : Nat) :
    (queue.drop count).toList = queue.toList.drop count := by
  unfold drop
  split
  · next h => simp [toList, List.drop_append_of_le_length h]
  · next h =>
    have hle : queue.front.length <= count := by omega
    simp [toList, List.drop_append, List.drop_eq_nil_of_le hle]

@[simp] theorem size_drop (queue : Queue α) (count : Nat) :
    (queue.drop count).size = queue.size - count := by
  rw [<- length_toList, toList_drop, List.length_drop, length_toList]

end Queue

end BrokerProbe

import CamReverse.Lib.Runs

/-!
# Mailboxes

A mailbox is a queue with a bounded number of places. A message that finds no place is lost; nobody learns of it.
What was taken out and what is still there are together, and in order, the messages that found a place
(`items_append_placed`).
-/

structure Mailbox (α : Type) where
  capacity : ℕ
  items : List α

namespace Mailbox

variable {α : Type}

/-- A message comes in, or the next one is taken. -/
inductive Act (α : Type) where
  | put (a : α)
  | take

def step (m : Mailbox α) : Act α → Mailbox α
  | .put a => { m with items := if m.items.length < m.capacity then m.items ++ [a] else m.items }
  | .take => { m with items := m.items.tail }

def took (m : Mailbox α) : Act α → List α
  | .put _ => []
  | .take => m.items.head?.toList

/-- What comes in, and whether there is a place for it. -/
def offered (m : Mailbox α) : Act α → List (α × Bool)
  | .put a => [(a, m.items.length < m.capacity)]
  | .take => []

/-- The messages that found a place. -/
def placed (offers : List (α × Bool)) : List α := (offers.filter Prod.snd).map Prod.fst

theorem placed_append (offers offers' : List (α × Bool)) :
    placed (offers ++ offers') = placed offers ++ placed offers' := by
  rw [placed, List.filter_append, List.map_append, placed, placed]

theorem placed_sublist (offers : List (α × Bool)) : (placed offers).Sublist (offers.map Prod.fst) :=
  List.filter_sublist.map Prod.fst

theorem items_append_placed_step (m : Mailbox α) (act : Act α) :
    m.items ++ placed (m.offered act) = m.took act ++ (m.step act).items := by
  cases act with
  | put a =>
    unfold offered took step placed
    by_cases hroom : m.items.length < m.capacity
    · simp [hroom]
    · simp [hroom]
  | take =>
    unfold offered took step placed
    cases m.items with
    | nil => rfl
    | cons a items => exact List.append_nil (a :: items)

/-- **First in, first out**: nothing is reordered, repeated or made up, and only what found no place is lost. -/
theorem items_append_placed (m : Mailbox α) (acts : List (Act α)) :
    m.items ++ placed (Runs.outputs step offered m acts) =
      Runs.outputs step took m acts ++ (acts.foldl step m).items := by
  induction acts generalizing m with
  | nil => exact List.append_nil _
  | cons act acts ih =>
    rw [Runs.outputs, Runs.outputs, placed_append, ← List.append_assoc, items_append_placed_step, List.append_assoc,
      ih, List.append_assoc, List.foldl_cons]

end Mailbox

/-!
# Ordered maps

Maps as lists of pairs in the order in which their keys were first written. Writing to a key that
is there changes its value in place; a new key goes to the end.
-/

namespace PerfReview.Assoc

variable {α β : Type} [DecidableEq α]

def get? (m : List (α × β)) (k : α) : Option β := (m.find? (·.1 = k)).map (·.2)

/-- The map with `v` at `k`. -/
def put (k : α) (v : β) : List (α × β) → List (α × β)
  | [] => [(k, v)]
  | (k', v') :: m => if k' = k then (k, v) :: m else (k', v') :: put k v m

/-- The map built by writing pairs one after the other. -/
def ofPairs (ps : List (α × β)) : List (α × β) := ps.foldl (fun m p => put p.1 p.2 m) []

@[simp] theorem get?_nil (k : α) : get? ([] : List (α × β)) k = none := rfl

theorem get?_cons (k k' : α) (v : β) (m : List (α × β)) :
    get? ((k', v) :: m) k = if k' = k then some v else get? m k := by
  by_cases h : k' = k <;> simp [get?, h]

theorem get?_put_self (m : List (α × β)) (k : α) (v : β) : get? (put k v m) k = some v := by
  induction m with
  | nil => simp [put, get?_cons]
  | cons p m ih =>
    obtain ⟨a, b⟩ := p
    by_cases h : a = k
    · simp [put, h, get?_cons]
    · simp [put, h, get?_cons, ih]

theorem get?_put_of_ne (m : List (α × β)) {k k' : α} (v : β) (h : k ≠ k') :
    get? (put k v m) k' = get? m k' := by
  induction m with
  | nil => simp [put, get?_cons, h]
  | cons p m ih =>
    obtain ⟨a, b⟩ := p
    by_cases h' : a = k
    · subst h'
      simp [put, get?_cons, h]
    · simp [put, h', get?_cons, ih]

end PerfReview.Assoc

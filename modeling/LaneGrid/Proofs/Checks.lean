/-!
# Chains of checks

What a chain of checks that passed says about its parts: each of them passed (`bind_ok`), and so did
the check of every element of a list (`mapM_ok`). In turn, a list of checks passes if each of them
does (`mapM_of_pure`, which holds of any steps that only give a value).
-/

namespace LaneGrid

variable {ε α β : Type}

theorem bind_ok {x : Except ε α} {f : α → Except ε β} {b : β} (h : x >>= f = .ok b) :
    ∃ a, x = .ok a ∧ f a = .ok b := by
  cases x with
  | error e => cases h
  | ok a => exact ⟨a, rfl, h⟩

theorem ok_bind (a : α) (f : α → Except ε β) : (Except.ok a >>= f) = f a := rfl

theorem toOption_eq_some {x : Except ε α} {a : α} : x.toOption = some a ↔ x = .ok a := by
  cases x <;> simp [Except.toOption]

theorem mapM_ok {f : α → Except ε β} : ∀ {l : List α} {l' : List β}, l.mapM f = .ok l' →
    l'.length = l.length ∧ ∀ (i : Nat) b, l'[i]? = some b → ∃ a, l[i]? = some a ∧ f a = .ok b
  | [], _, h => by
    cases h
    exact ⟨rfl, by simp⟩
  | a :: l, _, h => by
    rw [List.mapM_cons] at h
    obtain ⟨b, hb, h⟩ := bind_ok h
    obtain ⟨l', hl, h⟩ := bind_ok h
    cases h
    obtain ⟨hlen, hget⟩ := mapM_ok hl
    refine ⟨by simp [hlen], fun i b' hi => ?_⟩
    cases i with
    | zero =>
      cases hi
      exact ⟨a, rfl, hb⟩
    | succ i => exact hget i b' hi

theorem mapM_of_pure {m : Type → Type} [Monad m] [LawfulMonad m] {α β : Type} {f : α → m β}
    {g : α → β} {l : List α} (h : ∀ a ∈ l, f a = pure (g a)) : l.mapM f = pure (l.map g) := by
  induction l with
  | nil => rfl
  | cons a l ih =>
    have hl := ih fun a' ha' => h a' (List.mem_cons_of_mem a ha')
    rw [List.mapM_cons, h a List.mem_cons_self, hl]
    simp only [pure_bind, List.map_cons]

end LaneGrid

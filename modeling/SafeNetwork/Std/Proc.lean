/-! Fallible `async fn`s whose early returns keep what they have already done. -/
namespace SafeNetwork

/-- An `async fn` against a state `σ`: a value or an error, with the state it reached either way. -/
structure Proc (σ ε α : Type) where
  run : σ → σ × Except ε α

namespace Proc

variable {σ ε α β : Type}

instance : Monad (Proc σ ε) where
  pure a := ⟨fun s => (s, .ok a)⟩
  bind m f := ⟨fun s => match m.run s with
    | (s', .ok a) => (f a).run s'
    | (s', .error e) => (s', .error e)⟩

/-- An early `return Err(e)`. -/
def throw (e : ε) : Proc σ ε α := ⟨fun s => (s, .error e)⟩

/-- `r?` on a plain `Result`. -/
def ofExcept : Except ε α → Proc σ ε α
  | .ok a => pure a
  | .error e => throw e

/-- `if let Err(err) = m.await { warn!(..) }`: run `m`, keep what it did, go on regardless. -/
def attempt (m : Proc σ ε α) : Proc σ ε Unit := ⟨fun s => ((m.run s).1, .ok ())⟩

def get : Proc σ ε σ := ⟨fun s => (s, .ok s)⟩

def modify (f : σ → σ) : Proc σ ε Unit := ⟨fun s => (f s, .ok ())⟩

@[simp] theorem run_pure (a : α) (s : σ) : (pure a : Proc σ ε α).run s = (s, .ok a) := rfl

@[simp] theorem run_bind (m : Proc σ ε α) (f : α → Proc σ ε β) (s : σ) :
    (m >>= f).run s = match m.run s with
      | (s', .ok a) => (f a).run s'
      | (s', .error e) => (s', .error e) := rfl

@[simp] theorem run_throw (e : ε) (s : σ) : (throw e : Proc σ ε α).run s = (s, .error e) := rfl

@[simp] theorem run_attempt (m : Proc σ ε α) (s : σ) :
    (attempt m).run s = ((m.run s).1, .ok ()) := rfl

@[simp] theorem run_get (s : σ) : (get : Proc σ ε σ).run s = (s, .ok s) := rfl

@[simp] theorem run_modify (f : σ → σ) (s : σ) :
    (modify f : Proc σ ε Unit).run s = (f s, .ok ()) := rfl

@[simp] theorem ofExcept_ok (a : α) : (ofExcept (.ok a) : Proc σ ε α) = pure a := rfl

@[simp] theorem ofExcept_error (e : ε) : (ofExcept (.error e) : Proc σ ε α) = throw e := rfl

/-- `m` keeps `P`: from a state satisfying `P`, it reaches one, whether it returns or fails. -/
def Preserves (P : σ → Prop) (m : Proc σ ε α) : Prop := ∀ s, P s → P (m.run s).1

variable {P : σ → Prop}

theorem preserves_pure (a : α) : Preserves P (pure a : Proc σ ε α) := fun _ h => h

theorem preserves_get : Preserves P (get : Proc σ ε σ) := fun _ h => h

theorem Preserves.bind {m : Proc σ ε α} {f : α → Proc σ ε β} (hm : Preserves P m)
    (hf : ∀ a, Preserves P (f a)) : Preserves P (m >>= f) := by
  intro s hs
  rw [run_bind]
  rcases h : m.run s with ⟨s', _ | a⟩
  · simpa [h] using hm s hs
  · exact hf a s' (by simpa [h] using hm s hs)

theorem preserves_ofExcept (r : Except ε α) : Preserves P (ofExcept r : Proc σ ε α) := by
  cases r <;> exact fun _ h => h

end Proc

end SafeNetwork

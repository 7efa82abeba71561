import EditorScaffold.Store.Basic

/-! # Effects of attempts

An attempt works on the state of a store and may fail. `effect` tells what it gives and which state it
leaves behind, also when it fails. Attempts are taken apart step by step (`effect_bind`), and writing an
editor comes down to the operations of the store (`effect_writeEditor_absent`,
`effect_writeEditor_present`). -/

namespace EditorScaffold

variable {ε ε' σ α β : Type}

/-- What an attempt gives from a state, and the state after it. -/
def effect (x : ExceptT ε (StateM σ) α) (s : σ) : Except ε α × σ := (x.run.run s).run

@[simp] theorem effect_pure (a : α) (s : σ) :
    effect (pure a : ExceptT ε (StateM σ) α) s = (.ok a, s) := rfl

@[simp] theorem effect_throw (e : ε) (s : σ) :
    effect (throw e : ExceptT ε (StateM σ) α) s = (.error e, s) := rfl

/-- A step that only gives something goes on from the same state. -/
theorem effect_mk_ok_bind (a : α) (f : α → ExceptT ε (StateM σ) β) (s : σ) :
    effect ((ExceptT.mk (pure (.ok a)) : ExceptT ε (StateM σ) α) >>= f) s = effect (f a) s := rfl

/-- A step that only fails leaves the state as it is. -/
theorem effect_mk_error_bind (e : ε) (f : α → ExceptT ε (StateM σ) β) (s : σ) :
    effect ((ExceptT.mk (pure (.error e)) : ExceptT ε (StateM σ) α) >>= f) s = (.error e, s) := rfl

/-- The second step goes on from the state that the first one leaves, unless the first one fails. -/
theorem effect_bind (x : ExceptT ε (StateM σ) α) (f : α → ExceptT ε (StateM σ) β) (s : σ) :
    effect (x >>= f) s =
      match effect x s with
      | (.ok a, t) => effect (f a) t
      | (.error e, t) => (.error e, t) := by
  have h : effect (x >>= f) s = (ExceptT.bindCont f (effect x s).1 (effect x s).2).run := rfl
  rw [h]
  rcases effect x s with ⟨_ | _, t⟩ <;> rfl

theorem effect_bind_ok {x : ExceptT ε (StateM σ) α} {s t : σ} {a : α} (h : effect x s = (.ok a, t))
    (f : α → ExceptT ε (StateM σ) β) : effect (x >>= f) s = effect (f a) t := by
  rw [effect_bind, h]

theorem effect_bind_error {x : ExceptT ε (StateM σ) α} {s t : σ} {e : ε}
    (h : effect x s = (.error e, t)) (f : α → ExceptT ε (StateM σ) β) :
    effect (x >>= f) s = (.error e, t) := by
  rw [effect_bind, h]

/-- An adapted attempt fails with the adapted error. -/
theorem effect_adapt (x : ExceptT ε (StateM σ) α) (f : ε → ε') (s : σ) :
    effect (x.adapt f) s = ((effect x s).1.mapError f, (effect x s).2) := rfl

theorem effect_adapt_ok {x : ExceptT ε (StateM σ) α} {s t : σ} {a : α} (h : effect x s = (.ok a, t))
    (f : ε → ε') : effect (x.adapt f) s = (.ok a, t) := by
  rw [effect_adapt, h]
  rfl

/-! ### Writing an editor -/

variable [FileStore (StateM σ)] {path : Text} {s : σ}

/-- **Where nothing is**, the generated text is written. -/
theorem effect_writeEditor_absent
    (h : (FileStore.present (m := StateM σ) path).run s = (false, s)) (generated guardSymbol : Text) :
    effect (writeEditor (m := StateM σ) path generated guardSymbol) s =
      effect (do
        FileStore.writeText (m := StateM σ) path generated
        return WriteOutcome.created) s := by
  have hp : effect (liftM (FileStore.present (m := StateM σ) path) : ExceptT FileError (StateM σ) Bool) s =
      (.ok false, s) := congrArg (fun r : Bool × σ => (Except.ok r.1, r.2)) h
  rw [writeEditor, effect_bind_ok hp]
  rfl

/-- **Where something is**, it is read and the merged text is written. -/
theorem effect_writeEditor_present
    (h : (FileStore.present (m := StateM σ) path).run s = (true, s)) (generated guardSymbol : Text) :
    effect (writeEditor (m := StateM σ) path generated guardSymbol) s =
      effect (do
        let existing ← FileStore.readText (m := StateM σ) path
        FileStore.writeText path (Merge.merge existing generated guardSymbol).text
        return WriteOutcome.appended (Merge.merge existing generated guardSymbol).inserted) s := by
  have hp : effect (liftM (FileStore.present (m := StateM σ) path) : ExceptT FileError (StateM σ) Bool) s =
      (.ok true, s) := congrArg (fun r : Bool × σ => (Except.ok r.1, r.2)) h
  rw [writeEditor, effect_bind_ok hp]
  rfl

end EditorScaffold

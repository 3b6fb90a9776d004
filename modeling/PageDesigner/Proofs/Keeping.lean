/-!
# What actions keep

An action ends with a result or with a failure, and leaves a state in either case
(`leaves`).  A property of states is kept by an action if it holds of every state the
action leaves, provided that it held before (`Keeps`).  Properties are kept by a sequence
of actions if each of them keeps them (`Keeps.bind`).

An action that may change a state when it succeeds can still keep a property whenever it
fails (`FailsKeeping`).

How a closed run ends is computed: `succeedsWith` and `failsWith` check its result or its
failure together with the state that it leaves.
-/

namespace PageDesigner

variable {ε σ α β : Type}

/-- The state that an action leaves, whether it fails or not. -/
def leaves (action : EStateM ε σ α) (state : σ) : σ :=
  match action state with
  | .ok _ after => after
  | .error _ after => after

theorem leaves_of_ok {action : EStateM ε σ α} {state after : σ} {result : α}
    (done : action state = .ok result after) : leaves action state = after := by
  unfold leaves
  rw [done]

theorem leaves_of_error {action : EStateM ε σ α} {state after : σ} {failure : ε}
    (failed : action state = .error failure after) : leaves action state = after := by
  unfold leaves
  rw [failed]

/-- An action ends with a result or with a failure. -/
theorem ends (action : EStateM ε σ α) (state : σ) :
    (∃ result, action state = .ok result (leaves action state)) ∨
      ∃ failure, action state = .error failure (leaves action state) := by
  unfold leaves
  cases action state with
  | ok result after => exact .inl ⟨result, rfl⟩
  | error failure after => exact .inr ⟨failure, rfl⟩

theorem get_eq (state : σ) : (get : EStateM ε σ σ) state = .ok state state := rfl

theorem set_eq (new state : σ) : (set new : EStateM ε σ PUnit) state = .ok ⟨⟩ new := rfl

theorem modifyGet_eq (change : σ → α × σ) (state : σ) :
    (modifyGet change : EStateM ε σ α) state = .ok (change state).1 (change state).2 := rfl

theorem modify_eq (change : σ → σ) (state : σ) :
    (modify change : EStateM ε σ PUnit) state = .ok ⟨⟩ (change state) := rfl

/-- Whether an action ends with a result, and the result and the state it leaves pass a check. -/
def succeedsWith (check : α → σ → Bool) (action : EStateM ε σ α) (state : σ) : Bool :=
  match action state with
  | .ok result after => check result after
  | .error _ _ => false

/-- Whether an action fails, and the failure and the state it leaves pass a check. -/
def failsWith (check : ε → σ → Bool) (action : EStateM ε σ α) (state : σ) : Bool :=
  match action state with
  | .ok _ _ => false
  | .error failure after => check failure after

theorem exists_of_succeedsWith {check : α → σ → Bool} {action : EStateM ε σ α} {state : σ}
    (succeeds : succeedsWith check action state = true) :
    ∃ result after, action state = .ok result after ∧ check result after = true := by
  unfold succeedsWith at succeeds
  cases ran : action state with
  | ok result after =>
      rw [ran] at succeeds
      exact ⟨result, after, rfl, succeeds⟩
  | error failure after =>
      rw [ran] at succeeds
      cases succeeds

theorem exists_of_failsWith {check : ε → σ → Bool} {action : EStateM ε σ α} {state : σ}
    (fails : failsWith check action state = true) :
    ∃ failure after, action state = .error failure after ∧ check failure after = true := by
  unfold failsWith at fails
  cases ran : action state with
  | ok result after =>
      rw [ran] at fails
      cases fails
  | error failure after =>
      rw [ran] at fails
      exact ⟨failure, after, rfl, fails⟩

theorem bind_of_ok {first : EStateM ε σ α} {state after : σ} {result : α}
    (ran : first state = .ok result after) (next : α → EStateM ε σ β) :
    (first >>= next) state = next result after := by
  simp only [Bind.bind, EStateM.bind, ran]

theorem bind_of_error {first : EStateM ε σ α} {state after : σ} {failure : ε}
    (ran : first state = .error failure after) (next : α → EStateM ε σ β) :
    (first >>= next) state = .error failure after := by
  simp only [Bind.bind, EStateM.bind, ran]

theorem leaves_bind_of_ok {first : EStateM ε σ α} {state after : σ} {result : α}
    (ran : first state = .ok result after) (next : α → EStateM ε σ β) :
    leaves (first >>= next) state = leaves (next result) after := by
  unfold leaves
  rw [bind_of_ok ran]

theorem leaves_bind_of_error {first : EStateM ε σ α} {state after : σ} {failure : ε}
    (ran : first state = .error failure after) (next : α → EStateM ε σ β) :
    leaves (first >>= next) state = after := by
  unfold leaves
  rw [bind_of_error ran]

/-- A sequence of two actions fails where one of them does. -/
theorem error_of_bind {first : EStateM ε σ α} {next : α → EStateM ε σ β} {state after : σ}
    {failure : ε} (failed : (first >>= next) state = .error failure after) :
    first state = .error failure after ∨
      ∃ result middle, first state = .ok result middle ∧
        next result middle = .error failure after := by
  simp only [Bind.bind, EStateM.bind] at failed
  cases ran : first state with
  | ok result middle =>
      rw [ran] at failed
      exact .inr ⟨result, middle, rfl, failed⟩
  | error failure' middle =>
      rw [ran] at failed
      obtain ⟨rfl, rfl⟩ := EStateM.Result.error.inj failed
      exact .inl rfl

/-- A sequence of two actions succeeds where both of them do. -/
theorem ok_of_bind {first : EStateM ε σ α} {next : α → EStateM ε σ β} {state after : σ}
    {result : β} (done : (first >>= next) state = .ok result after) :
    ∃ outcome middle, first state = .ok outcome middle ∧
      next outcome middle = .ok result after := by
  simp only [Bind.bind, EStateM.bind] at done
  cases ran : first state with
  | ok outcome middle =>
      rw [ran] at done
      exact ⟨outcome, middle, rfl, done⟩
  | error failure middle =>
      rw [ran] at done
      cases done

/-- What fails on purpose behind an action that succeeds. -/
theorem eq_of_bind_throw {first : EStateM ε σ α} {state middle after : σ} {result : α}
    {cause failure : ε} (ran : first state = .ok result middle)
    (failed : (first >>= fun _ => (throw cause : EStateM ε σ β)) state = .error failure after) :
    cause = failure ∧ middle = after := by
  rw [bind_of_ok ran] at failed
  exact EStateM.Result.error.inj failed

theorem discard_of_ok {action : EStateM ε σ α} {state after : σ} {result : α}
    (ran : action state = .ok result after) :
    (discard action : EStateM ε σ PUnit) state = .ok ⟨⟩ after := by
  unfold Functor.discard
  simp only [Functor.mapConst, EStateM.map, Function.comp, ran]

theorem error_of_discard {action : EStateM ε σ α} {state after : σ} {failure : ε}
    (failed : (discard action : EStateM ε σ PUnit) state = .error failure after) :
    action state = .error failure after := by
  unfold Functor.discard at failed
  simp only [Functor.mapConst, EStateM.map, Function.comp] at failed
  cases ran : action state with
  | ok result middle =>
      rw [ran] at failed
      cases failed
  | error failure' middle =>
      rw [ran] at failed
      obtain ⟨rfl, rfl⟩ := EStateM.Result.error.inj failed
      rfl

theorem ok_of_discard {action : EStateM ε σ α} {state after : σ} {result : PUnit}
    (done : (discard action : EStateM ε σ PUnit) state = .ok result after) :
    ∃ outcome, action state = .ok outcome after := by
  unfold Functor.discard at done
  simp only [Functor.mapConst, EStateM.map, Function.comp] at done
  cases ran : action state with
  | ok outcome middle =>
      rw [ran] at done
      obtain ⟨-, rfl⟩ := EStateM.Result.ok.inj done
      exact ⟨outcome, rfl⟩
  | error failure middle =>
      rw [ran] at done
      cases done

theorem leaves_bind_set (state new : σ) (next : PUnit → EStateM ε σ β) :
    leaves (set new >>= next) state = leaves (next ⟨⟩) new := rfl

/-- What holds before the action holds after it, whether it fails or not. -/
def Keeps (holds : σ → Prop) (action : EStateM ε σ α) : Prop :=
  ∀ state, holds state → holds (leaves action state)

namespace Keeps

variable {holds : σ → Prop}

theorem ok {action : EStateM ε σ α} (keeps : Keeps holds action) {state after : σ} {result : α}
    (held : holds state) (done : action state = .ok result after) : holds after := by
  rw [← leaves_of_ok done]
  exact keeps state held

theorem congr {holds' : σ → Prop} {action : EStateM ε σ α} (keeps : Keeps holds action)
    (same : ∀ state, holds state ↔ holds' state) : Keeps holds' action :=
  fun state held => (same _).mp (keeps state ((same state).mpr held))

theorem pure (result : α) : Keeps holds (Pure.pure result : EStateM ε σ α) :=
  fun _ held => held

theorem throw (failure : ε) : Keeps holds (MonadExcept.throw failure : EStateM ε σ α) :=
  fun _ held => held

theorem get : Keeps holds (MonadState.get : EStateM ε σ σ) := fun _ held => held

theorem error {action : EStateM ε σ α} (keeps : Keeps holds action) {state after : σ}
    {failure : ε} (held : holds state) (failed : action state = .error failure after) :
    holds after := by
  rw [← leaves_of_error failed]
  exact keeps state held

theorem modifyGet {change : σ → α × σ} (keeps : ∀ state, holds state → holds (change state).2) :
    Keeps holds (MonadStateOf.modifyGet change : EStateM ε σ α) := keeps

theorem modify {change : σ → σ} (keeps : ∀ state, holds state → holds (change state)) :
    Keeps holds (modify change : EStateM ε σ PUnit) := keeps

theorem bind {first : EStateM ε σ α} {next : α → EStateM ε σ β} (keeps : Keeps holds first)
    (keeps' : ∀ state result middle, holds state → first state = .ok result middle →
      holds middle → holds (leaves (next result) middle)) : Keeps holds (first >>= next) := by
  intro state held
  cases ran : first state with
  | ok result after =>
      rw [leaves_bind_of_ok ran]
      exact keeps' state result after held ran (keeps.ok held ran)
  | error failure after =>
      rw [leaves_bind_of_error ran]
      exact keeps.error held ran

/-- The first of two actions may keep more than the sequence of them has to keep. -/
theorem follow {holds' : σ → Prop} {first : EStateM ε σ α} {next : α → EStateM ε σ β}
    (keeps : Keeps holds first) (weaker : ∀ state, holds state → holds' state) {state : σ}
    (held : holds state)
    (keeps' : ∀ result middle, holds middle → holds' (leaves (next result) middle)) :
    holds' (leaves (first >>= next) state) := by
  cases ran : first state with
  | ok result after =>
      rw [leaves_bind_of_ok ran]
      exact keeps' result after (keeps.ok held ran)
  | error failure after =>
      rw [leaves_bind_of_error ran]
      exact weaker after (keeps.error held ran)

/-- Each of two actions keeps what the sequence of them has to keep. -/
theorem seq {first : EStateM ε σ α} {next : α → EStateM ε σ β} (keeps : Keeps holds first)
    (keeps' : ∀ result, Keeps holds (next result)) : Keeps holds (first >>= next) :=
  keeps.bind fun _ result middle _ _ held => keeps' result middle held

theorem discard {action : EStateM ε σ α} (keeps : Keeps holds action) :
    Keeps holds (discard action) := by
  intro state held
  have after := keeps state held
  unfold leaves at after ⊢
  unfold Functor.discard
  simp only [Functor.mapConst, EStateM.map, Function.comp]
  cases ran : action state <;> rw [ran] at after <;> exact after

theorem forM {step : α → EStateM ε σ PUnit} (keeps : ∀ entry, Keeps holds (step entry))
    (entries : List α) : Keeps holds (entries.forM step) := by
  induction entries with
  | nil => exact pure _
  | cons entry rest ih => exact (keeps entry).seq fun _ => ih

end Keeps

/-- What holds before the action holds after it, should it fail. -/
def FailsKeeping (holds : σ → Prop) (action : EStateM ε σ α) : Prop :=
  ∀ state after failure, holds state → action state = .error failure after → holds after

namespace FailsKeeping

variable {holds : σ → Prop}

theorem throw (failure : ε) : FailsKeeping holds (MonadExcept.throw failure : EStateM ε σ α) :=
  fun _ _ _ held failed => (EStateM.Result.error.inj failed).2 ▸ held

theorem pure (result : α) : FailsKeeping holds (Pure.pure result : EStateM ε σ α) :=
  fun _ _ _ _ failed => nomatch failed

theorem modifyGet (change : σ → α × σ) :
    FailsKeeping holds (MonadStateOf.modifyGet change : EStateM ε σ α) :=
  fun _ _ _ _ failed => nomatch failed

theorem modify (change : σ → σ) :
    FailsKeeping holds (modify change : EStateM ε σ PUnit) :=
  fun _ _ _ _ failed => nomatch failed

/-- As long as the first of two actions keeps the property, the second may fail. -/
theorem seq {first : EStateM ε σ α} {next : α → EStateM ε σ β} (keeps : Keeps holds first)
    (keeps' : ∀ result, FailsKeeping holds (next result)) :
    FailsKeeping holds (first >>= next) := by
  intro state after failure held failed
  rcases error_of_bind failed with ran | ⟨result, middle, ran, failed'⟩
  · exact keeps.error held ran
  · exact keeps' result middle after failure (keeps.ok held ran) failed'

end FailsKeeping

end PageDesigner

/-!
Work that goes through a state and may fail. When a sequence of steps succeeds, each step has
succeeded in the state that the one before it left.
-/
namespace SchemaPackage.Outcome

variable {σ ε α β : Type}

theorem except_bind_eq_ok_iff {x : Except ε α} {f : α → Except ε β} {b : β} :
    (x >>= f) = .ok b ↔ ∃ a, x = .ok a ∧ f a = .ok b := by
  cases x <;> simp [bind, Except.bind]

theorem except_map_eq_ok_iff {x : Except ε α} {f : α → β} {b : β} :
    x.map f = .ok b ↔ ∃ a, x = .ok a ∧ f a = b := by
  cases x <;> simp [Except.map]

theorem except_map_eq_error_iff {x : Except ε α} {f : α → β} {e : ε} :
    x.map f = .error e ↔ x = .error e := by
  cases x <;> simp [Except.map]

theorem except_toOption_eq_some_iff {x : Except ε α} {a : α} :
    x.toOption = some a ↔ x = .ok a := by
  cases x <;> simp [Except.toOption]

theorem except_cases_of_isSome_eq {x : Except ε α} {y : Except ε β}
    (h : x.toOption.isSome = y.toOption.isSome) :
    (∃ e e', x = .error e ∧ y = .error e') ∨ ∃ a b, x = .ok a ∧ y = .ok b := by
  cases x with
  | error e =>
    cases y with
    | error e' => exact Or.inl ⟨e, e', rfl, rfl⟩
    | ok b => cases h
  | ok a =>
    cases y with
    | error e' => cases h
    | ok b => exact Or.inr ⟨a, b, rfl, rfl⟩

/-- A function that commutes with the second step commutes with both. -/
theorem except_map_bind {x : Except ε α} {f : α → Except ε α} {g : α → α}
    (h : ∀ a, f (g a) = (f a).map g) : x.map g >>= f = (x >>= f).map g := by
  cases x with
  | error e => rfl
  | ok a => exact h a

theorem except_bind_map {x : Except ε α} {f : α → Except ε β} {g : β → β}
    {f' : α → Except ε β} (h : ∀ a, f' a = (f a).map g) : x >>= f' = (x >>= f).map g := by
  cases x with
  | error e => rfl
  | ok a => exact h a

/-- Outcomes that are the same under a function fail alike or succeed alike. -/
theorem except_map_eq_map {x y : Except ε α} {g : α → β} (h : x.map g = y.map g) :
    (∃ e, x = .error e ∧ y = .error e) ∨ ∃ a b, x = .ok a ∧ y = .ok b ∧ g a = g b := by
  cases x with
  | error e =>
    cases y with
    | error e' =>
      cases h
      exact Or.inl ⟨e, rfl, rfl⟩
    | ok b => cases h
  | ok a =>
    cases y with
    | error e' => cases h
    | ok b => exact Or.inr ⟨a, b, rfl, rfl, Except.ok.inj h⟩

theorem bind_run (x : ExceptT ε (StateM σ) α) (f : α → ExceptT ε (StateM σ) β) (s : σ) :
    (x >>= f) s = match x s with
      | (.ok a, s') => f a s'
      | (.error e, s') => (.error e, s') := by
  simp only [bind, ExceptT.bind, ExceptT.mk, ExceptT.bindCont, StateT.bind, pure]
  rcases x s with ⟨_ | _, _⟩ <;> rfl

theorem bind_eq_ok_iff {x : ExceptT ε (StateM σ) α} {f : α → ExceptT ε (StateM σ) β}
    {s s'' : σ} {b : β} :
    (x >>= f) s = (.ok b, s'') ↔ ∃ a s', x s = (.ok a, s') ∧ f a s' = (.ok b, s'') := by
  rw [bind_run]
  rcases x s with ⟨_ | a, s'⟩
  · constructor
    · intro h
      cases h
    · rintro ⟨_, _, h, _⟩
      cases h
  · constructor
    · intro h
      exact ⟨a, s', rfl, h⟩
    · rintro ⟨_, _, h, hf⟩
      cases h
      exact hf

theorem pure_eq_ok_iff {a b : α} {s s' : σ} :
    (pure a : ExceptT ε (StateM σ) α) s = (.ok b, s') ↔ a = b ∧ s = s' := by
  constructor
  · intro h
    cases h
    exact ⟨rfl, rfl⟩
  · rintro ⟨rfl, rfl⟩
    rfl

theorem map_eq_ok_iff {x : ExceptT ε (StateM σ) α} {f : α → β} {b : β} {s s' : σ} :
    (f <$> x) s = (.ok b, s') ↔ ∃ a, x s = (.ok a, s') ∧ f a = b := by
  rw [map_eq_pure_bind, bind_eq_ok_iff]
  constructor
  · rintro ⟨a, _, hx, h⟩
    obtain ⟨rfl, rfl⟩ := pure_eq_ok_iff.mp h
    exact ⟨a, hx, rfl⟩
  · rintro ⟨a, hx, rfl⟩
    exact ⟨a, s', hx, rfl⟩

/-- A check that does not look at the state. -/
theorem lift_eq_ok_iff {x : Except ε α} {a : α} {s s' : σ} :
    (liftM x : ExceptT ε (StateM σ) α) s = (.ok a, s') ↔ x = .ok a ∧ s = s' := by
  constructor
  · intro h
    cases h
    exact ⟨rfl, rfl⟩
  · rintro ⟨rfl, rfl⟩
    rfl

/-- The outcome of work whose last step does not look at the state. -/
theorem fst_bind_lift (x : ExceptT ε (StateM σ) α) (f : α → Except ε β) (s : σ) :
    ((x >>= fun a => (liftM (f a) : ExceptT ε (StateM σ) β)) s).1 = (x s).1 >>= f := by
  rw [bind_run]
  rcases x s with ⟨_ | _, _⟩ <;> rfl

/-- The last step leaves the state as it finds it. -/
theorem snd_bind_lift (x : ExceptT ε (StateM σ) α) (f : α → Except ε β) (s : σ) :
    ((x >>= fun a => (liftM (f a) : ExceptT ε (StateM σ) β)) s).2 = (x s).2 := by
  rw [bind_run]
  rcases x s with ⟨_ | _, _⟩ <;> rfl

theorem fst_map (x : ExceptT ε (StateM σ) α) (f : α → β) (s : σ) :
    ((f <$> x) s).1 = (x s).1.map f := by
  rw [map_eq_pure_bind, bind_run]
  rcases x s with ⟨_ | _, _⟩ <;> rfl

theorem snd_map (x : ExceptT ε (StateM σ) α) (f : α → β) (s : σ) : ((f <$> x) s).2 = (x s).2 := by
  rw [map_eq_pure_bind, bind_run]
  rcases x s with ⟨_ | _, _⟩ <;> rfl

theorem throw_ne_ok {e : ε} {a : α} {s s' : σ} :
    (throw e : ExceptT ε (StateM σ) α) s ≠ (.ok a, s') := by
  intro h
  cases h

theorem except_toOption_bind (x : Except ε α) (f : α → Except ε β) :
    (x >>= f).toOption = x.toOption.bind fun a => (f a).toOption := by
  cases x <;> rfl

/-- The same outcome, unless it is in doubt which fault is reported. -/
inductive SameOutcome (InDoubt : ε → Prop) : Except ε α → Except ε α → Prop
  | same (x : Except ε α) : SameOutcome InDoubt x x
  | inDoubt {fault fault' : ε} (h : InDoubt fault) (h' : InDoubt fault') :
    SameOutcome InDoubt (.error fault) (.error fault')

namespace SameOutcome

variable {InDoubt : ε → Prop} {x y z : Except ε α}

theorem toOption_eq (h : SameOutcome InDoubt x y) : x.toOption = y.toOption := by
  cases h <;> rfl

theorem trans (h : SameOutcome InDoubt x y) (h' : SameOutcome InDoubt y z) :
    SameOutcome InDoubt x z := by
  cases h with
  | same => exact h'
  | inDoubt hx hy =>
    cases h' with
    | same => exact .inDoubt hx hy
    | inDoubt _ hz => exact .inDoubt hx hz

/-- Where every fault is in doubt, only success counts. -/
theorem of_toOption_eq (h : x.toOption = y.toOption) : SameOutcome (fun _ : ε => True) x y := by
  cases x with
  | error fault =>
    cases y with
    | error fault' => exact .inDoubt trivial trivial
    | ok b => cases h
  | ok a =>
    cases y with
    | error fault' => cases h
    | ok b =>
      cases h
      exact .same _

end SameOutcome

/-- Results that are the same, unless it is in doubt which fault is reported. -/
structure SameButFault (InDoubt : ε → Prop) (x y : Except ε α × σ) : Prop where
  outcome : SameOutcome InDoubt x.1 y.1
  state : x.2 = y.2

variable {InDoubt : ε → Prop}

theorem SameButFault.refl (x : Except ε α × σ) : SameButFault InDoubt x x := ⟨.same _, rfl⟩

/-- After a fault nothing more is done, whichever it is. -/
theorem SameButFault.bind {x y : ExceptT ε (StateM σ) α} {f g : α → ExceptT ε (StateM σ) β} {s : σ}
    (h : SameButFault InDoubt (x s) (y s))
    (hnext : ∀ a s', x s = (.ok a, s') → SameButFault InDoubt (f a s') (g a s')) :
    SameButFault InDoubt ((x >>= f) s) ((y >>= g) s) := by
  obtain ⟨houtcome, hstate⟩ := h
  rw [bind_run, bind_run]
  rcases hx : x s with ⟨outcome, s'⟩
  rcases hy : y s with ⟨outcome', s''⟩
  rw [hx, hy] at houtcome hstate
  obtain rfl : s' = s'' := hstate
  cases houtcome with
  | same =>
    cases outcome with
    | ok a => exact hnext a s' hx
    | error fault => exact .refl _
  | inDoubt hfault hfault' => exact ⟨.inDoubt hfault hfault', rfl⟩

/-- Checks that do not look at the state leave it alike. -/
theorem sameButFault_lift {x y : Except ε α} (h : SameOutcome InDoubt x y) (s : σ) :
    SameButFault InDoubt ((liftM x : ExceptT ε (StateM σ) α) s)
      ((liftM y : ExceptT ε (StateM σ) α) s) :=
  ⟨h, rfl⟩

end SchemaPackage.Outcome

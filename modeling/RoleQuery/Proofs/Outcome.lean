/-!
# Outcomes

What a computation that may fail has done when it succeeds: each of its steps has
succeeded, one after another.
-/
namespace RoleQuery.Except

variable {ε α β γ δ : Type}

/-- A step and what follows it succeed if the step does and what follows its result does. -/
theorem bind_eq_ok_iff {x : Except ε α} {f : α → Except ε β} {b : β} :
    x >>= f = .ok b ↔ ∃ a, x = .ok a ∧ f a = .ok b := by
  cases x with
  | error error => simp [bind, Except.bind]
  | ok a => simp [bind, Except.bind]

/-- A check and what follows it succeed if both do. -/
theorem check_bind_eq_ok_iff {x : Except ε Unit} {y : Except ε β} {b : β} :
    (do x; y) = .ok b ↔ x = .ok () ∧ y = .ok b := by
  rw [bind_eq_ok_iff]
  exact ⟨fun ⟨_, hx, hy⟩ => ⟨hx, hy⟩, fun ⟨hx, hy⟩ => ⟨(), hx, hy⟩⟩

theorem map_eq_ok_iff {x : Except ε α} {f : α → β} {b : β} :
    x.map f = .ok b ↔ ∃ a, x = .ok a ∧ f a = b := by
  cases x with
  | error error => simp [Except.map]
  | ok a => simp [Except.map]

/-- A step and what follows it fail if the step does, or what follows its result. -/
theorem bind_eq_error_iff {x : Except ε α} {f : α → Except ε β} {error : ε} :
    x >>= f = .error error ↔ x = .error error ∨ ∃ a, x = .ok a ∧ f a = .error error := by
  cases x with
  | error other => simp [bind, Except.bind]
  | ok a => simp [bind, Except.bind]

theorem map_eq_error_iff {x : Except ε α} {f : α → β} {error : ε} :
    x.map f = .error error ↔ x = .error error := by
  cases x with
  | error other => simp [Except.map]
  | ok a => simp [Except.map]

theorem mapM_some_eq_ok {f : α → Except ε β} {a : α} {b : Option β}
    (h : (some a).mapM f = .ok b) : ∃ b', f a = .ok b' ∧ b = some b' := by
  rw [Option.mapM_some] at h
  cases hf : f a with
  | error e =>
    rw [hf] at h
    cases h
  | ok b' =>
    rw [hf] at h
    cases h
    exact ⟨b', rfl, rfl⟩

/-- Checks of a list succeed if each of them does. -/
theorem forM_eq_ok_iff {f : α → Except ε Unit} {as : List α} :
    as.forM f = .ok () ↔ ∀ a ∈ as, f a = .ok () := by
  induction as with
  | nil => exact ⟨fun _ => by simp, fun _ => rfl⟩
  | cons a rest ih =>
    change (do f a; rest.forM f) = .ok () ↔ _
    rw [check_bind_eq_ok_iff, ih, List.forall_mem_cons]

/-- What a list of steps gives is given by one of them. -/
theorem exists_of_mem_mapM {f : α → Except ε β} {as : List α} {bs : List β}
    (h : as.mapM f = .ok bs) {b : β} (hb : b ∈ bs) : ∃ a ∈ as, f a = .ok b := by
  induction as generalizing bs with
  | nil =>
    cases h
    cases hb
  | cons a rest ih =>
    rw [List.mapM_cons] at h
    obtain ⟨first, hfirst, h⟩ := bind_eq_ok_iff.1 h
    obtain ⟨others, hothers, h⟩ := bind_eq_ok_iff.1 h
    cases h
    rcases List.mem_cons.1 hb with rfl | hb
    · exact ⟨a, List.mem_cons_self, hfirst⟩
    · obtain ⟨a', ha', hb'⟩ := ih hothers hb
      exact ⟨a', List.mem_cons_of_mem a ha', hb'⟩

/-- A list of steps fails with the cause of one of them. -/
theorem exists_of_mapM_eq_error {f : α → Except ε β} {as : List α} {error : ε}
    (h : as.mapM f = .error error) : ∃ a ∈ as, f a = .error error := by
  induction as with
  | nil => cases h
  | cons a rest ih =>
    rw [List.mapM_cons] at h
    rcases bind_eq_error_iff.1 h with hfirst | ⟨b, -, h⟩
    · exact ⟨a, List.mem_cons_self, hfirst⟩
    · rcases bind_eq_error_iff.1 h with hrest | ⟨bs, -, h⟩
      · obtain ⟨a', ha', herror⟩ := ih hrest
        exact ⟨a', List.mem_cons_of_mem a ha', herror⟩
      · cases h

/-- Each of a list of steps gives one of the results. -/
theorem exists_mem_of_mapM {f : α → Except ε β} {as : List α} {bs : List β}
    (h : as.mapM f = .ok bs) {a : α} (ha : a ∈ as) : ∃ b ∈ bs, f a = .ok b := by
  induction as generalizing bs with
  | nil => cases ha
  | cons first rest ih =>
    rw [List.mapM_cons] at h
    obtain ⟨b, hb, h⟩ := bind_eq_ok_iff.1 h
    obtain ⟨others, hothers, h⟩ := bind_eq_ok_iff.1 h
    cases h
    rcases List.mem_cons.1 ha with rfl | ha
    · exact ⟨b, List.mem_cons_self, hb⟩
    · obtain ⟨b', hb', hstep⟩ := ih hothers ha
      exact ⟨b', List.mem_cons_of_mem b hb', hstep⟩

theorem mapError_eq_ok_iff {ε' : Type} {x : Except ε α} {f : ε → ε'} {a : α} :
    x.mapError f = .ok a ↔ x = .ok a := by
  cases x with
  | error error => exact iff_of_false nofun nofun
  | ok b =>
    constructor
    · exact fun h => congrArg Except.ok (Except.ok.inj h)
    · exact fun h => congrArg Except.ok (Except.ok.inj h)

/-- What each of a list of steps keeps holds in the end. -/
theorem of_foldlM (P : α → Prop) {step : α → β → Except ε α} {bs : List β}
    (hstep : ∀ b ∈ bs, ∀ a, P a → ∀ a', step a b = .ok a' → P a') {a a' : α} (ha : P a)
    (h : bs.foldlM step a = .ok a') : P a' := by
  induction bs generalizing a with
  | nil =>
    cases h
    exact ha
  | cons b rest ih =>
    rw [List.foldlM_cons] at h
    obtain ⟨next, hnext, h⟩ := bind_eq_ok_iff.1 h
    refine ih (fun b hb => hstep b (List.mem_cons_of_mem _ hb)) ?_ h
    exact hstep b List.mem_cons_self a ha next hnext

/-- Two computations fail with one error, or their results are related. -/
inductive Agree (R : α → β → Prop) : Except ε α → Except ε β → Prop
  | error (e : ε) : Agree R (.error e) (.error e)
  | ok {a : α} {b : β} (h : R a b) : Agree R (.ok a) (.ok b)

theorem agree_refl {R : α → α → Prop} (hR : ∀ a, R a a) (x : Except ε α) : Agree R x x := by
  cases x with
  | error e => exact .error e
  | ok a => exact .ok (hR a)

theorem Agree.bind {R : α → β → Prop} {S : γ → δ → Prop} {x : Except ε α} {y : Except ε β}
    {f : α → Except ε γ} {g : β → Except ε δ} (h : Agree R x y)
    (hfg : ∀ a b, R a b → Agree S (f a) (g b)) : Agree S (x >>= f) (y >>= g) := by
  cases h with
  | error e => exact .error e
  | ok h => exact hfg _ _ h

theorem Agree.map {R : α → β → Prop} {S : γ → δ → Prop} {x : Except ε α} {y : Except ε β}
    {f : α → γ} {g : β → δ} (h : Agree R x y) (hfg : ∀ a b, R a b → S (f a) (g b)) :
    Agree S (x.map f) (y.map g) := by
  cases h with
  | error e => exact .error e
  | ok h => exact .ok (hfg _ _ h)

/-- Steps that agree from related starts agree when they are taken one after another. -/
theorem Agree.foldlM {R : α → α → Prop} {step : α → β → Except ε α}
    (hstep : ∀ a a' b, R a a' → Agree R (step a b) (step a' b)) {x y : Except ε α}
    (h : Agree R x y) (bs : List β) :
    Agree R (x >>= fun a => bs.foldlM step a) (y >>= fun a => bs.foldlM step a) := by
  refine h.bind fun a a' haa' => ?_
  induction bs generalizing a a' with
  | nil => exact .ok haa'
  | cons b rest ih => exact (hstep a a' b haa').bind ih

/-- To keep the same of two results is to have results that agree in it. -/
theorem agree_iff_map_eq {f : α → β} {f' : γ → β} {x : Except ε α} {y : Except ε γ} :
    Agree (fun a b => f a = f' b) x y ↔ x.map f = y.map f' := by
  constructor
  · rintro (e | h)
    · rfl
    · exact congrArg Except.ok h
  · intro h
    cases x with
    | error e => cases y with
      | error other => cases h; exact .error e
      | ok b => cases h
    | ok a => cases y with
      | error other => cases h
      | ok b => exact .ok (Except.ok.inj h)

/-- Results that agree in what is kept of them lead to results that agree in
what is kept of those. -/
theorem map_bind_congr {x y : Except ε α} {f : α → β} {k k' : α → Except ε γ} {g : γ → δ}
    (h : x.map f = y.map f) (hk : ∀ a b, f a = f b → (k a).map g = (k' b).map g) :
    (x >>= k).map g = (y >>= k').map g :=
  agree_iff_map_eq.1 <| (agree_iff_map_eq.2 h).bind fun a b hab => agree_iff_map_eq.2 (hk a b hab)

/-- What is kept of a result may be computed from what is kept before. -/
theorem map_map_congr {x y : Except ε α} {f : α → β} {k k' : α → γ} {g : γ → δ}
    (h : x.map f = y.map f) (hk : ∀ a b, f a = f b → g (k a) = g (k' b)) :
    (x.map k).map g = (y.map k').map g :=
  agree_iff_map_eq.1 ((agree_iff_map_eq.2 h).map hk)

end RoleQuery.Except

/-
Steps that keep to their own keys. A state is looked at key by key; a step
is local to some keys when it changes nothing else and when what it does,
and whether it succeeds, depends on what is at those keys alone. Sequences,
branches and reads of local steps are local, and two local steps that do
not change each other's keys commute.

Some of the keys (`W`) a step may only change while nobody holds them.
-/
import Passdari.Lib.Checks
import Mathlib.Data.Set.Basic

/-- How a state is looked at, and which keys are taken. -/
structure View (σ K V : Type) where
  look : σ → K → V
  held : V → Prop

namespace View

variable {σ K V ε α β : Type} (v : View σ K V)

/-- The states look alike at the keys of `F`. -/
def Alike (F : Set K) (s t : σ) : Prop := ∀ k ∈ F, v.look s k = v.look t k

/-- The states look alike everywhere. -/
def Same (s t : σ) : Prop := ∀ k, v.look s k = v.look t k

variable {v} {F G W : Set K} {s t u : σ}

theorem Alike.symm (h : v.Alike F s t) : v.Alike F t s := fun k hk => (h k hk).symm

theorem Alike.trans (h : v.Alike F s t) (h' : v.Alike F t u) : v.Alike F s u :=
  fun k hk => (h k hk).trans (h' k hk)

theorem Alike.mono (h : v.Alike G s t) (hFG : F ⊆ G) : v.Alike F s t := fun k hk => h k (hFG hk)

end View

variable {σ K V ε α β : Type} {v : View σ K V} {F G W : Set K}

/-- Outside `F` only keys of `W` that nobody holds change. -/
def View.Kept (v : View σ K V) (F W : Set K) (s s' : σ) : Prop :=
  ∀ k, k ∉ F → (k ∈ W → v.held (v.look s k)) → v.look s' k = v.look s k

theorem View.Kept.refl (s : σ) : v.Kept F W s s := fun _ _ _ => rfl

theorem View.Kept.trans {s s₁ s₂ : σ} (h₁ : v.Kept F W s s₁) (h₂ : v.Kept F W s₁ s₂) : v.Kept F W s s₂ := by
  intro k hk hheld
  have hsame := h₁ k hk hheld
  rw [h₂ k hk fun hw => by rw [hsame]; exact hheld hw, hsame]

theorem View.Kept.outside {s s' : σ} (h : v.Kept F W s s') {k : K} (hk : k ∉ F ∪ W) :
    v.look s' k = v.look s k :=
  h k (fun hF => hk (.inl hF)) fun hW => absurd (.inr hW) hk

/-- What is read is at the keys of `F`. -/
def Reads (v : View σ K V) (F : Set K) (r : σ → Except ε α) : Prop :=
  ∀ ⦃s t a⦄, v.Alike F s t → r s = .ok a → r t = .ok a

/-- The step changes the keys of `F`, those of `W` only while nobody holds them, and no others; and it does
so by what is at these keys. -/
structure Local (v : View σ K V) (F W : Set K) (f : σ → Except ε σ) : Prop where
  kept : ∀ {s s'}, f s = .ok s' → v.Kept F W s s'
  tracks : ∀ {s t s'}, v.Alike (F ∪ W) s t → f s = .ok s' → ∃ t', f t = .ok t' ∧ v.Alike (F ∪ W) s' t'

/-- The same for a step that has a value as well. -/
structure LocalWith (v : View σ K V) (F W : Set K) (f : σ → Except ε (σ × α)) : Prop where
  kept : ∀ {s s' a}, f s = .ok (s', a) → v.Kept F W s s'
  tracks : ∀ {s t s' a}, v.Alike (F ∪ W) s t → f s = .ok (s', a) →
    ∃ t', f t = .ok (t', a) ∧ v.Alike (F ∪ W) s' t'

/-! ## Building local steps -/

namespace Local

theorem skip : Local v F W (fun s => (pure s : Except ε σ)) where
  kept h := by cases h; exact .refl _
  tracks hst h := by cases h; exact ⟨_, rfl, hst⟩

theorem seq {f g : σ → Except ε σ} (hf : Local v F W f) (hg : Local v F W g) :
    Local v F W (fun s => f s >>= g) where
  kept h := by
    obtain ⟨s₁, h₁, h₂⟩ := Except.bind_eq_ok.mp h
    exact (hf.kept h₁).trans (hg.kept h₂)
  tracks hst h := by
    obtain ⟨s₁, h₁, h₂⟩ := Except.bind_eq_ok.mp h
    obtain ⟨t₁, ht₁, hst₁⟩ := hf.tracks hst h₁
    obtain ⟨t₂, ht₂, hst₂⟩ := hg.tracks hst₁ h₂
    exact ⟨t₂, Except.bind_eq_ok.mpr ⟨t₁, ht₁, ht₂⟩, hst₂⟩

/-- A step that reads before it goes on. -/
theorem read {r : σ → Except ε α} {f : α → σ → Except ε σ} (hr : Reads v (F ∪ W) r)
    (hf : ∀ a, Local v F W (f a)) : Local v F W (fun s => r s >>= fun a => f a s) where
  kept h := by
    obtain ⟨a, -, h₂⟩ := Except.bind_eq_ok.mp h
    exact (hf a).kept h₂
  tracks hst h := by
    obtain ⟨a, h₁, h₂⟩ := Except.bind_eq_ok.mp h
    obtain ⟨t', ht', hst'⟩ := (hf a).tracks hst h₂
    exact ⟨t', Except.bind_eq_ok.mpr ⟨a, hr hst h₁, ht'⟩, hst'⟩

/-- A step that checks or computes something without the state before it goes on. -/
theorem pass {x : Except ε α} {f : α → σ → Except ε σ} (hf : ∀ a, x = .ok a → Local v F W (f a)) :
    Local v F W (fun s => x >>= fun a => f a s) where
  kept h := by
    obtain ⟨a, h₁, h₂⟩ := Except.bind_eq_ok.mp h
    exact (hf a h₁).kept h₂
  tracks hst h := by
    obtain ⟨a, h₁, h₂⟩ := Except.bind_eq_ok.mp h
    obtain ⟨t', ht', hst'⟩ := (hf a h₁).tracks hst h₂
    exact ⟨t', Except.bind_eq_ok.mpr ⟨a, h₁, ht'⟩, hst'⟩

theorem seqWith {f : σ → Except ε (σ × α)} {g : σ × α → Except ε σ} (hf : LocalWith v F W f)
    (hg : ∀ a, Local v F W (fun s => g (s, a))) : Local v F W (fun s => f s >>= g) where
  kept h := by
    obtain ⟨⟨s₁, a⟩, h₁, h₂⟩ := Except.bind_eq_ok.mp h
    exact (hf.kept h₁).trans ((hg a).kept h₂)
  tracks hst h := by
    obtain ⟨⟨s₁, a⟩, h₁, h₂⟩ := Except.bind_eq_ok.mp h
    obtain ⟨t₁, ht₁, hst₁⟩ := hf.tracks hst h₁
    obtain ⟨t₂, ht₂, hst₂⟩ := (hg a).tracks hst₁ h₂
    exact ⟨t₂, Except.bind_eq_ok.mpr ⟨_, ht₁, ht₂⟩, hst₂⟩

/-- A branch on something that is at the keys. -/
theorem branch {p : σ → Prop} [∀ s, Decidable (p s)] {f g : σ → Except ε σ}
    (hp : ∀ {s t}, v.Alike (F ∪ W) s t → (p s ↔ p t)) (hf : Local v F W f) (hg : Local v F W g) :
    Local v F W (fun s => if p s then f s else g s) where
  kept {s s'} h := by
    split at h
    · exact hf.kept h
    · exact hg.kept h
  tracks {s t s'} hst h := by
    split at h
    · next hs => rw [if_pos ((hp hst).mp hs)]; exact hf.tracks hst h
    · next hs => rw [if_neg fun ht => hs ((hp hst).mpr ht)]; exact hg.tracks hst h

theorem ite {p : Prop} [Decidable p] {f g : σ → Except ε σ} (hf : p → Local v F W f)
    (hg : ¬p → Local v F W g) : Local v F W (fun s => if p then f s else g s) := by
  by_cases hp : p
  · simpa only [if_pos hp] using hf hp
  · simpa only [if_neg hp] using hg hp

/-- A local step is local to more keys. -/
theorem mono {f : σ → Except ε σ} {F' W' : Set K} (h : Local v F W f) (hF : F ⊆ F') (hW : W ⊆ F' ∪ W') :
    Local v F' W' f := by
  have hsub : F ∪ W ⊆ F' ∪ W' := Set.union_subset (fun k hk => .inl (hF hk)) hW
  refine ⟨fun {s s'} hs k hk hheld => ?_, fun {s t s'} hst hs => ?_⟩
  · exact h.kept hs k (fun hk' => hk (hF hk')) fun hk' => hheld ((hW hk').resolve_left hk)
  · obtain ⟨t', ht', hst'⟩ := h.tracks (hst.mono hsub) hs
    refine ⟨t', ht', fun k hk => ?_⟩
    by_cases hin : k ∈ F ∪ W
    · exact hst' k hin
    · rw [(h.kept hs).outside hin, (h.kept ht').outside hin, hst k hk]

end Local

namespace LocalWith

theorem skip {a : α} : LocalWith v F W (fun s => (pure (s, a) : Except ε (σ × α))) where
  kept h := by cases h; exact .refl _
  tracks hst h := by cases h; exact ⟨_, rfl, hst⟩

theorem seq {f : σ → Except ε σ} {g : σ → Except ε (σ × α)} (hf : Local v F W f) (hg : LocalWith v F W g) :
    LocalWith v F W (fun s => f s >>= g) where
  kept h := by
    obtain ⟨s₁, h₁, h₂⟩ := Except.bind_eq_ok.mp h
    exact (hf.kept h₁).trans (hg.kept h₂)
  tracks hst h := by
    obtain ⟨s₁, h₁, h₂⟩ := Except.bind_eq_ok.mp h
    obtain ⟨t₁, ht₁, hst₁⟩ := hf.tracks hst h₁
    obtain ⟨t₂, ht₂, hst₂⟩ := hg.tracks hst₁ h₂
    exact ⟨t₂, Except.bind_eq_ok.mpr ⟨t₁, ht₁, ht₂⟩, hst₂⟩

theorem read {r : σ → Except ε β} {f : β → σ → Except ε (σ × α)} (hr : Reads v (F ∪ W) r)
    (hf : ∀ b, LocalWith v F W (f b)) : LocalWith v F W (fun s => r s >>= fun b => f b s) where
  kept h := by
    obtain ⟨b, -, h₂⟩ := Except.bind_eq_ok.mp h
    exact (hf b).kept h₂
  tracks hst h := by
    obtain ⟨b, h₁, h₂⟩ := Except.bind_eq_ok.mp h
    obtain ⟨t', ht', hst'⟩ := (hf b).tracks hst h₂
    exact ⟨t', Except.bind_eq_ok.mpr ⟨b, hr hst h₁, ht'⟩, hst'⟩

theorem pass {x : Except ε β} {f : β → σ → Except ε (σ × α)} (hf : ∀ b, x = .ok b → LocalWith v F W (f b)) :
    LocalWith v F W (fun s => x >>= fun b => f b s) where
  kept h := by
    obtain ⟨b, h₁, h₂⟩ := Except.bind_eq_ok.mp h
    exact (hf b h₁).kept h₂
  tracks hst h := by
    obtain ⟨b, h₁, h₂⟩ := Except.bind_eq_ok.mp h
    obtain ⟨t', ht', hst'⟩ := (hf b h₁).tracks hst h₂
    exact ⟨t', Except.bind_eq_ok.mpr ⟨b, h₁, ht'⟩, hst'⟩

theorem branch {p : σ → Prop} [∀ s, Decidable (p s)] {f g : σ → Except ε (σ × α)}
    (hp : ∀ {s t}, v.Alike (F ∪ W) s t → (p s ↔ p t)) (hf : LocalWith v F W f) (hg : LocalWith v F W g) :
    LocalWith v F W (fun s => if p s then f s else g s) where
  kept {s s' a} h := by
    split at h
    · exact hf.kept h
    · exact hg.kept h
  tracks {s t s' a} hst h := by
    split at h
    · next hs => rw [if_pos ((hp hst).mp hs)]; exact hf.tracks hst h
    · next hs => rw [if_neg fun ht => hs ((hp hst).mpr ht)]; exact hg.tracks hst h

end LocalWith

/-! ## Commuting -/

/-- Where a step leads: nowhere else, when it fails. -/
def Except.after (f : σ → Except ε σ) (s : σ) : σ := (f s).toOption.getD s

theorem Except.after_ok {f : σ → Except ε σ} {s s' : σ} (h : f s = .ok s') : Except.after f s = s' := by
  rw [Except.after, h]
  rfl

theorem Except.after_error {f : σ → Except ε σ} {s : σ} {e : ε} (h : f s = .error e) :
    Except.after f s = s := by
  rw [Except.after, h]
  rfl

/-- One after the other, in either order, each succeeds or fails as it does alone, and they lead to the same
state. -/
structure CommuteAt (v : View σ K V) (f g : σ → Except ε σ) (s : σ) : Prop where
  left : (f (Except.after g s)).isOk = (f s).isOk
  right : (g (Except.after f s)).isOk = (g s).isOk
  same : v.Same (Except.after f (Except.after g s)) (Except.after g (Except.after f s))

theorem CommuteAt.symm {f g : σ → Except ε σ} {s : σ} (h : CommuteAt v f g s) : CommuteAt v g f s :=
  ⟨h.right, h.left, fun k => (h.same k).symm⟩

theorem Local.isOk_of_alike {f : σ → Except ε σ} (hf : Local v F W f) {s t : σ} (h : v.Alike (F ∪ W) s t) :
    (f s).isOk = (f t).isOk := by
  cases hs : f s with
  | ok s' =>
    obtain ⟨t', ht', -⟩ := hf.tracks h hs
    rw [ht']
    rfl
  | error e =>
    cases ht : f t with
    | ok t' =>
      obtain ⟨s', hs', -⟩ := hf.tracks h.symm ht
      rw [hs] at hs'
      cases hs'
    | error e' => rfl

section

variable {f g : σ → Except ε σ} {F' W' : Set K} {s : σ}

/-- One of them fails: the other one alone decides. -/
theorem CommuteAt.of_error {e : ε} (hg : g s = .error e)
    (hfg : ∀ s', f s = .ok s' → (g s').isOk = (g s).isOk) : CommuteAt v f g s := by
  cases hs : f s with
  | error e' =>
    refine ⟨by rw [Except.after_error hg], by rw [Except.after_error hs], ?_⟩
    rw [Except.after_error hg, Except.after_error hs, Except.after_error hg]
    exact fun _ => rfl
  | ok s' =>
    have hno := hfg s' hs
    rw [hg] at hno
    obtain ⟨e', he'⟩ : ∃ e', g s' = .error e' := by
      cases h : g s' with
      | error e' => exact ⟨e', rfl⟩
      | ok t => rw [h] at hno; cases hno
    refine ⟨by rw [Except.after_error hg], by rw [Except.after_ok hs, he', hg]; rfl, ?_⟩
    rw [Except.after_error hg, Except.after_ok hs, Except.after_error he']
    exact fun _ => rfl

/-- **Local steps commute where neither changes what the other one depends on**, whenever the other one
succeeds before or after. -/
theorem Local.commute_at (hf : Local v F W f) (hg : Local v F' W' g)
    (hfg : ∀ s', g s = .ok s' → (f s).isOk = true ∨ (f s').isOk = true → v.Alike (F ∪ W) s s')
    (hgf : ∀ s', f s = .ok s' → (g s).isOk = true ∨ (g s').isOk = true → v.Alike (F' ∪ W') s s') :
    CommuteAt v f g s := by
  have hsame : ∀ {f g : σ → Except ε σ} {F W : Set K}, Local v F W f →
      (∀ s', g s = .ok s' → (f s).isOk = true ∨ (f s').isOk = true → v.Alike (F ∪ W) s s') →
      ∀ s', g s = .ok s' → (f s').isOk = (f s).isOk := by
    intro f g F W hf hfg s' hs'
    by_cases h : (f s).isOk = true ∨ (f s').isOk = true
    · exact (hf.isOk_of_alike (hfg s' hs' h)).symm
    · rw [not_or, Bool.not_eq_true, Bool.not_eq_true] at h
      rw [h.1, h.2]
  cases hg₂ : g s with
  | error e => exact .of_error hg₂ (hsame hg hgf)
  | ok s₂ =>
    cases hf₁ : f s with
    | error e => exact .symm (.of_error hf₁ (hsame hf hfg))
    | ok s₁ =>
      have hF := hfg s₂ hg₂ (.inl (by rw [hf₁]; rfl))
      have hG := hgf s₁ hf₁ (.inl (by rw [hg₂]; rfl))
      obtain ⟨s₂₁, h₂₁, ha₂₁⟩ := hf.tracks hF hf₁
      obtain ⟨s₁₂, h₁₂, ha₁₂⟩ := hg.tracks hG hg₂
      refine ⟨by rw [Except.after_ok hg₂, h₂₁, hf₁]; rfl, by rw [Except.after_ok hf₁, h₁₂, hg₂]; rfl, ?_⟩
      rw [Except.after_ok hg₂, Except.after_ok hf₁, Except.after_ok h₂₁, Except.after_ok h₁₂]
      intro k
      -- a key of both is changed by neither
      by_cases hk : k ∈ F ∪ W
      · by_cases hk' : k ∈ F' ∪ W'
        · rw [← ha₂₁ k hk, ← ha₁₂ k hk', ← hG k hk', ← hF k hk]
        · rw [← ha₂₁ k hk, (hg.kept h₁₂).outside hk']
      · rw [(hf.kept h₂₁).outside hk]
        by_cases hk' : k ∈ F' ∪ W'
        · rw [← ha₁₂ k hk']
        · rw [(hg.kept h₁₂).outside hk', (hg.kept hg₂).outside hk', (hf.kept hf₁).outside hk]

/-- **Steps local to different keys commute**, from any state. -/
theorem Local.commute (hf : Local v F W f) (hg : Local v F' W' g) (hd : ∀ k ∈ F ∪ W, k ∉ F' ∪ W') (s : σ) :
    CommuteAt v f g s :=
  hf.commute_at hg (fun _ h _ k hk => ((hg.kept h).outside (hd k hk)).symm)
    fun _ h _ k hk => ((hf.kept h).outside fun hk' => hd k hk' hk).symm

end

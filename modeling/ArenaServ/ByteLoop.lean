import Mathlib.Data.Nat.Notation
import Mathlib.Tactic.SplitIfs

/-!
# A loop over a byte

`for (c = start; c <= bound; ++c)` where `c` is one byte and the bound is an integer. Where the
bound is below the start nothing is visited, and from 255 on the loop has no end but the one that
its body finds.
-/

namespace ByteLoop

section Runs
variable {α β : Type*} {run : ℕ → Option α} {r s : α}

/-- A computation that is given enough fuel has a result. -/
def Returns (run : ℕ → Option α) (r : α) : Prop := ∃ fuel, run fuel = some r

/-- More fuel does not change a result. -/
def Steady (run : ℕ → Option α) : Prop := ∀ fuel r, run fuel = some r → run (fuel + 1) = some r

theorem Steady.of_le (h : Steady run) {m n : ℕ} (hm : run m = some r) (hle : m ≤ n) :
    run n = some r := by
  induction hle with
  | refl => exact hm
  | step _ ih => exact h _ r ih

theorem Steady.unique (h : Steady run) (hr : Returns run r) (hs : Returns run s) : r = s := by
  obtain ⟨m, hm⟩ := hr
  obtain ⟨n, hn⟩ := hs
  have hboth := h.of_le hm (Nat.le_max_left m n)
  rw [h.of_le hn (Nat.le_max_right m n)] at hboth
  exact (Option.some.inj hboth).symm

theorem not_returns_of_none (h : ∀ fuel, run fuel = none) : ¬ Returns run r := by
  rintro ⟨fuel, hfuel⟩
  rw [h] at hfuel
  cases hfuel

theorem returns_const : Returns (fun _ => some r) s ↔ r = s :=
  ⟨fun ⟨_, h⟩ => Option.some.inj h, fun h => ⟨0, congrArg some h⟩⟩

theorem steady_const : Steady (fun _ => some r) := fun _ _ h => h

theorem returns_map {f : α → β} {b : β} :
    Returns (fun fuel => (run fuel).map f) b ↔ ∃ r, Returns run r ∧ f r = b := by
  constructor
  · rintro ⟨fuel, h⟩
    obtain ⟨r, hr, hb⟩ := Option.map_eq_some_iff.mp h
    exact ⟨r, ⟨fuel, hr⟩, hb⟩
  · rintro ⟨r, ⟨fuel, hr⟩, hb⟩
    exact ⟨fuel, Option.map_eq_some_iff.mpr ⟨r, hr, hb⟩⟩

theorem Steady.map (h : Steady run) (f : α → β) : Steady fun fuel => (run fuel).map f := by
  intro fuel b hb
  obtain ⟨r, hr, hf⟩ := Option.map_eq_some_iff.mp hb
  exact Option.map_eq_some_iff.mpr ⟨r, h fuel r hr, hf⟩

theorem returns_bind {next : α → ℕ → Option β} {b : β} (hrun : Steady run)
    (hnext : ∀ a, Steady (next a)) :
    Returns (fun fuel => (run fuel).bind fun a => next a fuel) b ↔
      ∃ a, Returns run a ∧ Returns (next a) b := by
  constructor
  · rintro ⟨fuel, h⟩
    obtain ⟨a, ha, hb⟩ := Option.bind_eq_some_iff.mp h
    exact ⟨a, ⟨fuel, ha⟩, ⟨fuel, hb⟩⟩
  · rintro ⟨a, ⟨m, hm⟩, ⟨n, hn⟩⟩
    refine ⟨max m n, Option.bind_eq_some_iff.mpr ⟨a, ?_, ?_⟩⟩
    · exact hrun.of_le hm (Nat.le_max_left m n)
    · exact (hnext a).of_le hn (Nat.le_max_right m n)

theorem Steady.bind {next : α → ℕ → Option β} (hrun : Steady run)
    (hnext : ∀ a, Steady (next a)) :
    Steady fun fuel => (run fuel).bind fun a => next a fuel := by
  intro fuel b hb
  obtain ⟨a, ha, hb⟩ := Option.bind_eq_some_iff.mp hb
  exact Option.bind_eq_some_iff.mpr ⟨a, hrun fuel a ha, hnext a fuel b hb⟩

end Runs

variable {σ : Type*}

/-- Whether the body has found something, where the loop was then, and what it has carried on. -/
def loop (bound : ℕ) (body : UInt8 → σ → ℕ → Option (Bool × σ)) :
    ℕ → UInt8 → σ → Option (Bool × UInt8 × σ)
  | 0, _, _ => none
  | fuel + 1, c, s =>
      if c.toNat ≤ bound then
        (body c s fuel).bind fun r =>
          if r.1 then some (true, c, r.2) else loop bound body fuel (c + 1) r.2
      else some (false, c, s)

variable {bound : ℕ} {body : UInt8 → σ → ℕ → Option (Bool × σ)} {c d : UInt8} {s : σ}
  {r : Bool × UInt8 × σ}

theorem steady_loop (hbody : ∀ c s, Steady (body c s)) (c : UInt8) (s : σ) :
    Steady fun fuel => loop bound body fuel c s := by
  intro fuel
  induction fuel generalizing c s with
  | zero =>
      intro r h
      cases h
  | succ fuel ih =>
      intro r h
      change loop bound body (fuel + 1) c s = some r at h
      change loop bound body (fuel + 2) c s = some r
      rw [loop] at h ⊢
      split_ifs at h ⊢ with hc
      · obtain ⟨b, hb, hrest⟩ := Option.bind_eq_some_iff.mp h
        refine Option.bind_eq_some_iff.mpr ⟨b, hbody c s fuel b hb, ?_⟩
        split_ifs at hrest ⊢ with hfound
        · exact hrest
        · exact ih _ _ _ hrest
      · exact h

/-! ## Rules for one visit -/

theorem returns_beyond (hc : bound < c.toNat) :
    Returns (fun fuel => loop bound body fuel c s) (false, c, s) :=
  ⟨1, if_neg (Nat.not_le.mpr hc)⟩

theorem returns_found {t : σ} (hc : c.toNat ≤ bound) (h : Returns (body c s) (true, t)) :
    Returns (fun fuel => loop bound body fuel c s) (true, c, t) := by
  obtain ⟨fuel, hfuel⟩ := h
  refine ⟨fuel + 1, ?_⟩
  change loop bound body (fuel + 1) c s = _
  rw [loop, if_pos hc, hfuel]
  rfl

theorem returns_next {t : σ} (hbody : ∀ c s, Steady (body c s)) (hc : c.toNat ≤ bound)
    (h : Returns (body c s) (false, t))
    (hrest : Returns (fun fuel => loop bound body fuel (c + 1) t) r) :
    Returns (fun fuel => loop bound body fuel c s) r := by
  obtain ⟨m, hm⟩ := h
  obtain ⟨n, hn⟩ := hrest
  refine ⟨max m n + 1, ?_⟩
  change loop bound body (max m n + 1) c s = some r
  rw [loop, if_pos hc, (hbody c s).of_le hm (Nat.le_max_left m n)]
  exact (steady_loop hbody (c + 1) t).of_le hn (Nat.le_max_right m n)

/-- The loop ends only if its first visit does. -/
theorem loop_none_of_body (hc : c.toNat ≤ bound) (h : ∀ fuel, body c s fuel = none) (fuel : ℕ) :
    loop bound body fuel c s = none := by
  cases fuel with
  | zero => rfl
  | succ fuel => rw [loop, if_pos hc, h, Option.bind_none]

/-- Where no byte is beyond the bound, only a body that finds something ends the loop. -/
theorem loop_none_of_never (hbound : 255 ≤ bound)
    (h : ∀ c s fuel r, body c s fuel = some r → r.1 = false) (fuel : ℕ) (c : UInt8) (s : σ) :
    loop bound body fuel c s = none := by
  induction fuel generalizing c s with
  | zero => rfl
  | succ fuel ih =>
      have hc : c.toNat ≤ bound := Nat.le_trans (Nat.le_of_lt_succ c.toNat_lt) hbound
      rw [loop, if_pos hc]
      cases hb : body c s fuel with
      | none => rfl
      | some b =>
          rw [Option.bind_some, h c s fuel b hb, if_neg Bool.false_ne_true]
          exact ih _ _

/-! ## Rules for many visits -/

/-- The body has a result here, which finds something or not whatever has been carried on. -/
def Decides (body : UInt8 → σ → ℕ → Option (Bool × σ)) (found : UInt8 → Bool) (c : UInt8) : Prop :=
  ∀ s, ∃ t, Returns (body c s) (found c, t)

variable {found : UInt8 → Bool}

theorem toNat_add_one (h : c.toNat < d.toNat) : (c + 1).toNat = c.toNat + 1 := by
  have hd := d.toNat_lt
  rw [UInt8.toNat_add]
  change (c.toNat + 1) % 2 ^ 8 = _
  omega

/-- Visits that find nothing lead on to the byte behind them. -/
theorem returns_pass (hbody : ∀ c s, Steady (body c s)) (hle : c.toNat ≤ d.toNat)
    (hd : d.toNat ≤ bound + 1)
    (hpass : ∀ e : UInt8, c.toNat ≤ e.toNat → e.toNat < d.toNat →
      Decides body found e ∧ found e = false) (s : σ) :
    ∃ t, ∀ r, Returns (fun fuel => loop bound body fuel d t) r →
      Returns (fun fuel => loop bound body fuel c s) r := by
  induction hn : d.toNat - c.toNat generalizing c s with
  | zero =>
      have heq : c = d := UInt8.toNat_inj.mp (by omega)
      exact ⟨s, fun r h => heq ▸ h⟩
  | succ n ih =>
      have hsucc := toNat_add_one (c := c) (d := d) (by omega)
      obtain ⟨hdecides, hnot⟩ := hpass c (Nat.le_refl _) (by omega)
      obtain ⟨t, ht⟩ := hdecides s
      rw [hnot] at ht
      obtain ⟨u, hu⟩ := ih (c := c + 1) (by omega) (fun e hce => hpass e (by omega)) t (by omega)
      exact ⟨u, fun r h => returns_next hbody (by omega) ht (hu r h)⟩

/-- The first visit that finds something ends the loop. -/
theorem returns_first (bound : ℕ) (body : UInt8 → σ → ℕ → Option (Bool × σ))
    (hbody : ∀ c s, Steady (body c s)) (hle : c.toNat ≤ d.toNat)
    (hd : d.toNat ≤ bound)
    (hdecides : ∀ e : UInt8, c.toNat ≤ e.toNat → e.toNat ≤ d.toNat → Decides body found e)
    (hfound : found d = true) (s : σ) :
    ∃ e t u, c.toNat ≤ e.toNat ∧ e.toNat ≤ d.toNat ∧ Returns (body e t) (true, u) ∧
      Returns (fun fuel => loop bound body fuel c s) (true, e, u) := by
  induction hn : d.toNat - c.toNat generalizing c s with
  | zero =>
      have heq : c = d := UInt8.toNat_inj.mp (by omega)
      obtain ⟨t, ht⟩ := hdecides d hle (Nat.le_refl _) s
      rw [hfound, ← heq] at ht
      exact ⟨c, s, t, Nat.le_refl _, hle, ht, returns_found (by omega) ht⟩
  | succ n ih =>
      have hsucc := toNat_add_one (c := c) (d := d) (by omega)
      obtain ⟨t, ht⟩ := hdecides c (Nat.le_refl _) hle s
      cases hc : found c with
      | true =>
          rw [hc] at ht
          exact ⟨c, s, t, Nat.le_refl _, hle, ht, returns_found (by omega) ht⟩
      | false =>
          rw [hc] at ht
          obtain ⟨e, v, u, hce, hed, hbe, hloop⟩ :=
            ih (c := c + 1) (by omega) (fun e hce => hdecides e (by omega)) t (by omega)
          exact ⟨e, v, u, by omega, hed, hbe, returns_next hbody (by omega) ht hloop⟩

/-- A loop that finds nothing up to a bound that a byte can pass. -/
theorem returns_end (bound : ℕ) (body : UInt8 → σ → ℕ → Option (Bool × σ))
    (hbody : ∀ c s, Steady (body c s)) (hbound : bound < 255)
    (hc : c.toNat ≤ bound + 1)
    (hpass : ∀ e : UInt8, c.toNat ≤ e.toNat → e.toNat ≤ bound →
      Decides body found e ∧ found e = false) (s : σ) :
    ∃ d t, d.toNat = bound + 1 ∧ Returns (fun fuel => loop bound body fuel c s) (false, d, t) := by
  have hd : (UInt8.ofNat (bound + 1)).toNat = bound + 1 := by
    rw [UInt8.toNat_ofNat']
    omega
  have hle : (UInt8.ofNat (bound + 1)).toNat ≤ bound + 1 := Nat.le_of_eq hd
  obtain ⟨t, ht⟩ := returns_pass hbody (c := c) (by omega) hle
    (fun e hce hed => hpass e hce (by omega)) s
  exact ⟨_, t, hd, ht _ (returns_beyond (by omega))⟩

/-- A loop that cannot pass its bound comes to every byte. -/
theorem returns_round (bound : ℕ) (body : UInt8 → σ → ℕ → Option (Bool × σ))
    (hbody : ∀ c s, Steady (body c s)) (hbound : 255 ≤ bound)
    (hdecides : ∀ e, Decides body found e) (hfound : found d = true) (c : UInt8) (s : σ) :
    ∃ e t u, Returns (body e t) (true, u) ∧
      Returns (fun fuel => loop bound body fuel c s) (true, e, u) := by
  have hlast : (255 : UInt8).toNat = 255 := rfl
  have hbelow : ∀ e : UInt8, e.toNat ≤ 255 := fun e => Nat.le_of_lt_succ e.toNat_lt
  by_cases hahead : ∃ e : UInt8, c.toNat ≤ e.toNat ∧ found e = true
  · obtain ⟨e, hce, he⟩ := hahead
    obtain ⟨f, t, u, -, -, hf, hloop⟩ := returns_first bound body hbody hce
      (Nat.le_trans (hbelow e) hbound) (fun e _ _ => hdecides e) he s
    exact ⟨f, t, u, hf, hloop⟩
  · have hnot : ∀ e : UInt8, c.toNat ≤ e.toNat → found e = false := by
      intro e hce
      exact Bool.eq_false_iff.mpr fun he => hahead ⟨e, hce, he⟩
    have hend : (255 : UInt8).toNat ≤ bound + 1 := Nat.le_succ_of_le hbound
    obtain ⟨t, ht⟩ := returns_pass hbody (hbelow c) hend
      (fun e hce _ => ⟨hdecides e, hnot e hce⟩) s
    obtain ⟨v, hv⟩ := hdecides 255 t
    rw [hnot 255 (hbelow c)] at hv
    obtain ⟨e, x, u, -, -, he, hloop⟩ := returns_first bound body hbody (c := 255 + 1) (d := d)
      (Nat.zero_le _) (Nat.le_trans (hbelow d) hbound) (fun e _ _ => hdecides e) hfound v
    exact ⟨e, x, u, he, ht _ (returns_next hbody hbound hv hloop)⟩

end ByteLoop

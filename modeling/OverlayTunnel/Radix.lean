/-!
Numbers as lists of digits of any base, most significant first. `value` and `expand` are inverse to
each other up to the number of digits.
-/
namespace OverlayTunnel.Radix

-- Powers of natural numbers are those of the core library in every module.
attribute [instance (1100)] instPowNat

def value (base : Nat) (digits : List Nat) : Nat :=
  digits.foldl (fun n d => n * base + d) 0

def expand (base : Nat) : Nat → Nat → List Nat
  | 0, _ => []
  | k + 1, n => expand base k (n / base) ++ [n % base]

@[simp] theorem value_nil (base : Nat) : value base [] = 0 := rfl

@[simp] theorem value_concat (base : Nat) (ds : List Nat) (d : Nat) :
    value base (ds ++ [d]) = value base ds * base + d := by
  simp [value]

@[simp] theorem length_expand (base k n : Nat) : (expand base k n).length = k := by
  induction k generalizing n with
  | zero => rfl
  | succ k ih => simp [expand, ih]

/-- Expanding to `k` digits keeps a number modulo `base ^ k`. -/
theorem value_expand (base k n : Nat) : value base (expand base k n) = n % base ^ k := by
  induction k generalizing n with
  | zero => simp [expand, Nat.mod_one]
  | succ k ih =>
    rw [expand, value_concat, ih, Nat.pow_succ, Nat.mul_comm (base ^ k), Nat.mod_mul,
      Nat.mul_comm, Nat.add_comm]

/-- Digits below the base are the expansion of their value. -/
theorem expand_value (base : Nat) {k : Nat} {ds : List Nat} (hk : ds.length = k)
    (h : ∀ d ∈ ds, d < base) : expand base k (value base ds) = ds := by
  induction k generalizing ds with
  | zero => rw [List.eq_nil_of_length_eq_zero hk]; rfl
  | succ k ih =>
    rcases List.eq_nil_or_concat ds with rfl | ⟨front, d, rfl⟩
    · simp at hk
    · have hd : d < base := h d (by simp)
      have hq : (value base front * base + d) / base = value base front := by
        rw [Nat.add_comm, Nat.add_mul_div_right _ _ (by omega), Nat.div_eq_of_lt hd, Nat.zero_add]
      have hr : (value base front * base + d) % base = d := by
        rw [Nat.add_comm, Nat.add_mul_mod_self_right, Nat.mod_eq_of_lt hd]
      rw [List.concat_eq_append, expand, value_concat, hq, hr,
        ih (by simpa using hk) fun e he => h e (by simp [he])]

theorem value_lt {base k : Nat} {ds : List Nat} (hb : 0 < base) (hk : ds.length = k)
    (h : ∀ d ∈ ds, d < base) : value base ds < base ^ k := by
  have hvalue := value_expand base k (value base ds)
  rw [expand_value base hk h] at hvalue
  rw [hvalue]
  exact Nat.mod_lt _ (Nat.pow_pos hb)

theorem lt_of_mem_expand {base k n d : Nat} (hb : 0 < base) (h : d ∈ expand base k n) :
    d < base := by
  induction k generalizing n with
  | zero => simp [expand] at h
  | succ k ih =>
    rw [expand, List.mem_append, List.mem_singleton] at h
    rcases h with h | rfl
    · exact ih h
    · exact Nat.mod_lt _ hb

/-- Digits of base 256 are bytes. -/
theorem toNat_bytes_expand (k n : Nat) :
    ((expand 256 k n).map UInt8.ofNat).map UInt8.toNat = expand 256 k n := by
  rw [List.map_map]
  refine (List.map_congr_left ?_).trans (List.map_id _)
  intro d hd
  exact UInt8.toNat_ofNat_of_lt' (lt_of_mem_expand (by decide) hd)

theorem expand_add (base j k n : Nat) :
    expand base (j + k) n = expand base j (n / base ^ k) ++ expand base k n := by
  induction k generalizing n with
  | zero => simp [expand]
  | succ k ih =>
    rw [← Nat.add_assoc, expand, ih, expand, Nat.div_div_eq_div_mul, Nat.pow_succ, Nat.mul_comm base,
      List.append_assoc]

theorem expand_mod (base k n : Nat) : expand base k (n % base ^ k) = expand base k n := by
  induction k generalizing n with
  | zero => rfl
  | succ k ih =>
    rw [expand, expand, Nat.pow_succ, Nat.mul_comm, Nat.mod_mul_right_div_self,
      Nat.mod_mul_right_mod, ih]

/-- The last `k` digits do not depend on anything above them. -/
theorem expand_congr {base k n m : Nat} (h : n % base ^ k = m % base ^ k) :
    expand base k n = expand base k m := by
  rw [← expand_mod, h, expand_mod]

end OverlayTunnel.Radix

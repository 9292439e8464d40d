import EventIndex.Sql.Numeric
import EventIndex.Proofs.Text.Scanning

/-! # Numbers of the database read back

A whole number is read back from a decimal with any number of places, as long as its digits fit.
A whole number that is written as text stands there without a point. -/

namespace EventIndex.Sql.Numeric

/-- The same number with more places. -/
def withPlaces (n places : Nat) : Numeric :=
  ⟨n * scale places, places⟩

@[simp] theorem places_withPlaces (n places : Nat) : (withPlaces n places).places = places := rfl

theorem scale_pos (places : Nat) : 0 < scale places := by
  rw [scale]
  exact Int.natCast_pos.mpr (Nat.pow_pos (by decide))

theorem scale_add (m n : Nat) : scale (m + n) = scale m * scale n := by
  simp [scale, Nat.pow_add]

theorem whole?_withPlaces (n places : Nat) : (withPlaces n places).whole? = some (n : Int) := by
  have hne := (scale_pos places).ne'
  simp [whole?, withPlaces, Int.mul_ediv_cancel _ hne]

theorem roundDiv_mul (n : Nat) {d : Nat} (hd : 0 < d) : roundDiv (n * d) d = n := by
  simp [roundDiv, Nat.mul_div_cancel _ hd, Nat.mul_mod_left]
  omega

theorem shorten?_withPlaces {n : Nat} (h : n < magnitudeLimit) (places : Nat) :
    ∃ q, (withPlaces n places).shorten? = some (withPlaces n q) := by
  have hstep (cut : Nat) (hcut : cut ≤ places) :
      roundDiv (withPlaces n places).unscaled.natAbs (10 ^ cut) = n * 10 ^ (places - cut) := by
    have hpow : n * 10 ^ places = n * 10 ^ (places - cut) * 10 ^ cut := by
      rw [Nat.mul_assoc, ← Nat.pow_add, Nat.sub_add_cancel hcut]
    have habs : (withPlaces n places).unscaled.natAbs = n * 10 ^ places := by
      simp [withPlaces, scale, Int.natAbs_mul]
    rw [habs, hpow]
    exact roundDiv_mul _ (Nat.pow_pos (by decide))
  have hsome : (withPlaces n places).shorten?.isSome := by
    rw [shorten?, List.findSome?_isSome_iff]
    refine ⟨places, by simp [withPlaces], ?_⟩
    have hlast := hstep places le_rfl
    rw [Nat.sub_self, Nat.pow_zero, Nat.mul_one] at hlast
    simp [hlast, h]
  obtain ⟨m, hm⟩ := Option.isSome_iff_exists.mp hsome
  obtain ⟨cut, hcut, hvalue⟩ := List.exists_of_findSome?_eq_some hm
  have hle : cut ≤ places := by simpa [withPlaces, Nat.lt_succ_iff] using hcut
  simp only [Nat.pow_eq, hstep cut hle] at hvalue
  split at hvalue
  · refine ⟨places - cut, hm.trans (hvalue.symm.trans ?_)⟩
    have hsign : (withPlaces n places).unscaled.sign * n = n := by
      have hscale := Int.sign_eq_one_of_pos (scale_pos places)
      cases n <;> simp [withPlaces, hscale, Int.sign_mul]
    have hscale : ((n * 10 ^ (places - cut) : Nat) : Int) = n * scale (places - cut) := by
      simp [scale]
    rw [hscale, ← Int.mul_assoc, hsign]
    rfl
  · cases hvalue

theorem fit?_withPlaces {n : Nat} (h : n < magnitudeLimit) (places : Nat) :
    ∃ m, (withPlaces n places).fit? = some m ∧ m.whole? = some (n : Int) := by
  by_cases hzero : n = 0
  · subst hzero
    exact ⟨⟨0, 0⟩, by simp [fit?, withPlaces], rfl⟩
  · have hne : (withPlaces n places).unscaled ≠ 0 := by
      have := scale_pos places
      simp [withPlaces, hzero]
      omega
    -- The places beyond the last one of a decimal are zeros.
    have hbeyond : (withPlaces n places).unscaled =
        (withPlaces n (min places maxPlaces)).unscaled * scale (places - maxPlaces) := by
      have hplaces : scale places = scale (min places maxPlaces) * scale (places - maxPlaces) := by
        have hsum : min places maxPlaces + (places - maxPlaces) = places := by omega
        rw [← scale_add, hsum]
      rw [withPlaces, withPlaces, hplaces, Int.mul_assoc]
    have hpos := (scale_pos (places - maxPlaces)).ne'
    obtain ⟨q, hq⟩ := shorten?_withPlaces h (min places maxPlaces)
    refine ⟨withPlaces n q, ?_, whole?_withPlaces n q⟩
    have hdiv : (withPlaces n places).unscaled % scale (places - maxPlaces) = 0 := by
      rw [hbeyond]
      exact Int.mul_emod_left _ _
    have hquotient : (withPlaces n places).unscaled / scale (places - maxPlaces) =
        (withPlaces n (min places maxPlaces)).unscaled := by
      rw [hbeyond, Int.mul_ediv_cancel _ hpos]
    have hfit : (withPlaces n places).fit? = (withPlaces n (min places maxPlaces)).shorten? := by
      simp only [fit?, hne, if_false, places_withPlaces, hdiv, if_true, hquotient]
      rfl
    rw [hfit, hq]

/-! ## Whole numbers as text -/

theorem ofText?_toString (n : Int) : ofText? (toString n) = some ⟨n, 0⟩ := by
  have hdigits := Text.isDigits_toDigits n.natAbs
  have hwhole : (Nat.toDigits 10 n.natAbs).takeWhile (· ≠ '.') = Nat.toDigits 10 n.natAbs := by
    rw [List.takeWhile_eq_self_iff]
    intro c hc
    have hdigit := hdigits.2 c hc
    simp
    rintro rfl
    cases hdigit
  have hvalue := Text.natOfDigits?_toDigits n.natAbs
  rw [ofText?, Text.toList_toString]
  by_cases hneg : n < 0
  · have hsigned : -Int.ofNat n.natAbs = n := by simp only [Int.ofNat_eq_natCast]; omega
    simp only [hneg, if_true, List.singleton_append, hwhole, List.drop_length, List.drop_nil,
      List.append_nil, hvalue, Option.map_some, List.length_nil, hsigned]
  · have hunsigned : Int.ofNat n.natAbs = n := by simp only [Int.ofNat_eq_natCast]; omega
    simp only [hneg, if_false, List.nil_append]
    split
    · next cs hcs =>
      have hminus := hdigits.2 '-' (by simp [hcs])
      cases hminus
    · simp only [hwhole, List.drop_length, List.drop_nil, List.append_nil, hvalue, Option.map_some,
        List.length_nil, Bool.false_eq_true, if_false, hunsigned]

theorem text_whole (n : Int) : text ⟨n, 0⟩ = toString n := by
  have hlength : 0 < (Nat.toDigits 10 n.natAbs).length :=
    List.length_pos_iff.mpr (Text.isDigits_toDigits n.natAbs).1
  have hzeros : 1 - (Nat.toDigits 10 n.natAbs).length = 0 := by omega
  rw [← String.toList_inj, Text.toList_toString]
  simp [text, hzeros]

end EventIndex.Sql.Numeric

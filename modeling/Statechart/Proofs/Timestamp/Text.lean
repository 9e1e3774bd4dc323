import Statechart.Proofs.Text.Decimal
import Statechart.Timestamp.Text

namespace Statechart.Timestamp

open Statechart.Text

variable {rest : List Char} {c : Char} {n width : Nat}

theorem isBlank_of_isDigit (digit : c.isDigit) : isBlank c = false := by
  obtain ⟨low, high⟩ := isDigit_iff.mp digit
  simp [isBlank]
  omega

theorem skipBlank_cons (visible : isBlank c = false) (cs : List Char) : skipBlank (c :: cs) = c :: cs :=
  List.dropWhile_cons_of_neg (by simp [visible])

theorem skipBlank_padded (width n : Nat) (rest : List Char) :
    skipBlank (padded width n ++ rest) = padded width n ++ rest := by
  obtain ⟨c, cs, starts, digit⟩ := exists_padded width n
  rw [starts]
  exact skipBlank_cons (isBlank_of_isDigit digit) _

theorem twoDigits?_padded (fits : n < 100) (rest : List Char) : twoDigits? (padded 2 n ++ rest) = some (n, rest) := by
  unfold twoDigits?
  rw [skipBlank_padded]
  exact number?_padded (by decide) fits rest

theorem expect?_cons (visible : isBlank c = false) (cs : List Char) : expect? c (c :: cs) = some cs := by
  unfold expect?
  rw [skipBlank_cons visible]
  simp

theorem year?_yearText (year : Int) (rest : List Char) :
    year? (yearText year ++ '-' :: rest) = some (year, '-' :: rest) := by
  have ends : Ends ('-' :: rest) := ends_cons (by decide) rest
  unfold yearText
  split
  · rename_i negative
    have read := allDigits?_padded 4 year.natAbs ends
    unfold year?
    rw [List.cons_append, skipBlank_cons (by decide)]
    simp only [read, Option.map_some, ofDigits_padded]
    rw [show -(year.natAbs : Int) = year by omega]
  · split
    · rename_i small
      have read := number?_padded (show 0 < 4 by decide) (show year.toNat < 10 ^ 4 by omega) ('-' :: rest)
      obtain ⟨c, cs, starts, digit⟩ := exists_padded 4 year.toNat
      unfold year?
      rw [skipBlank_padded]
      split
      · rename_i sign
        rw [starts, List.cons_append] at sign
        rw [(List.cons.inj sign).1] at digit
        exact absurd digit (by decide)
      · rename_i sign
        rw [starts, List.cons_append] at sign
        rw [(List.cons.inj sign).1] at digit
        exact absurd digit (by decide)
      · rw [read]
        simp only [Option.map_some]
        rw [show (year.toNat : Int) = year by omega]
    · rename_i large
      have read := allDigits?_padded 4 year.toNat ends
      unfold year?
      rw [List.cons_append, skipBlank_cons (by decide)]
      simp only [read, Option.map_some, ofDigits_padded]
      rw [show (year.toNat : Int) = year by omega]

theorem fraction?_fractionText (short : n < nanosPerSecond) (ends : Ends rest) (point : rest.head? ≠ some '.') :
    fraction? (fractionText n ++ rest) = some (n, rest) := by
  have kept (width k : Nat) (wide : 0 < width ∧ width ≤ 9) (fits : k < 10 ^ width) :
      fraction? ('.' :: padded width k ++ rest) = some (k * 10 ^ (9 - width), rest) := by
    have whole : (padded width k).take 9 = padded width k := by
      rw [List.take_of_length_le]
      rw [length_padded wide.1 fits]
      exact wide.2
    unfold fraction?
    rw [List.cons_append]
    simp only [allDigits?_padded width k ends, Option.map_some, whole, length_padded wide.1 fits, ofDigits_zeros,
      ofDigits_padded]
  unfold nanosPerSecond at short
  unfold fractionText
  split
  · rename_i whole
    unfold fraction?
    rw [List.nil_append]
    split
    · exact absurd rfl point
    · rw [whole]
  · split
    · rename_i millis
      rw [kept 3 _ (by decide) (by omega)]
      rw [show n / 1000000 * 10 ^ (9 - 3) = n by omega]
    · split
      · rename_i micros
        rw [kept 6 _ (by decide) (by omega)]
        rw [show n / 1000 * 10 ^ (9 - 6) = n by omega]
      · rw [kept 9 _ (by decide) (by omega)]
        rw [Nat.sub_self, Nat.pow_zero, Nat.mul_one]

theorem ofLocal?_utc (t : Timestamp) : ofLocal? t.date t.time 0 = some t := by
  have bound := t.valid.2.1
  unfold ofLocal?
  rw [if_neg (not_not.mpr t.valid.1)]
  rw [if_neg (by omega), if_pos (by omega)]
  rw [show ((t.time.second : Int) - 0 * 60).toNat = t.time.second by omega]
  exact dif_pos t.valid

theorem render_eq (t : Timestamp) : t.render = yearText t.date.year ++ '-' :: (padded 2 t.date.month ++
    '-' :: (padded 2 t.date.day ++ 'T' :: (padded 2 (t.time.second / 3600) ++ ':' :: (padded 2 (t.time.second / 60 % 60) ++
    ':' :: (padded 2 (t.time.second % 60 + t.time.nano / nanosPerSecond) ++
    (fractionText (t.time.nano % nanosPerSecond) ++ ['Z'])))))) := by
  simp only [render, List.append_assoc, List.cons_append]

/-- A timestamp is read as it was written. -/
theorem parse?_render (t : Timestamp) : parse? t.render = some t := by
  obtain ⟨⟨_, monthRange, dayRange⟩, secondRange, nanoRange, leapSecond⟩ := t.valid
  have monthDays : daysInMonth t.date.year t.date.month ≤ 31 := by
    unfold daysInMonth
    split
    · split <;> omega
    · split <;> omega
  unfold secondsPerDay at secondRange
  have leap : t.time.nano / nanosPerSecond = if nanosPerSecond ≤ t.time.nano then 1 else 0 := by
    unfold nanosPerSecond at nanoRange ⊢
    split <;> omega
  have month := twoDigits?_padded (n := t.date.month) (by omega)
  have day := twoDigits?_padded (n := t.date.day) (by omega)
  have hour := twoDigits?_padded (n := t.time.second / 3600) (by omega)
  have minute := twoDigits?_padded (n := t.time.second / 60 % 60) (by omega)
  have second := twoDigits?_padded (n := t.time.second % 60 + t.time.nano / nanosPerSecond) (by split at leap <;> omega)
  have short : t.time.nano % nanosPerSecond < nanosPerSecond := Nat.mod_lt _ (by decide)
  have ends : Ends ['Z'] := ends_cons (by decide) []
  have fraction := fraction?_fractionText short ends (by decide)
  have dash := expect?_cons (c := '-') (by decide)
  have colon := expect?_cons (c := ':') (by decide)
  unfold parse?
  rw [render_eq]
  refine Option.bind_eq_some_iff.mpr ⟨_, year?_yearText _ _, ?_⟩
  refine Option.bind_eq_some_iff.mpr ⟨_, dash _, ?_⟩
  refine Option.bind_eq_some_iff.mpr ⟨_, month _, ?_⟩
  refine Option.bind_eq_some_iff.mpr ⟨_, dash _, ?_⟩
  refine Option.bind_eq_some_iff.mpr ⟨_, day _, ?_⟩
  refine Option.bind_eq_some_iff.mpr ⟨_, rfl, ?_⟩
  refine Option.bind_eq_some_iff.mpr ⟨_, hour _, ?_⟩
  refine Option.bind_eq_some_iff.mpr ⟨_, colon _, ?_⟩
  refine Option.bind_eq_some_iff.mpr ⟨_, minute _, ?_⟩
  refine Option.bind_eq_some_iff.mpr ⟨_, colon _, ?_⟩
  refine Option.bind_eq_some_iff.mpr ⟨_, second _, ?_⟩
  refine Option.bind_eq_some_iff.mpr ⟨_, fraction, ?_⟩
  refine Option.bind_eq_some_iff.mpr ⟨(0, []), rfl, ?_⟩
  dsimp only
  -- only a leap second reaches the sixtieth, and there it is taken back
  have sixtieth : (t.time.second % 60 + t.time.nano / nanosPerSecond) / 60 = t.time.nano / nanosPerSecond := by
    split at leap
    · rename_i late
      have last := leapSecond late
      omega
    · omega
  have wholeSecond : t.time.second / 3600 * 3600 + t.time.second / 60 % 60 * 60 +
      (t.time.second % 60 + t.time.nano / nanosPerSecond) - t.time.nano / nanosPerSecond = t.time.second := by omega
  rw [if_pos ⟨by omega, by omega, by split at leap <;> omega, rfl⟩, sixtieth, wholeSecond, Nat.mod_add_div']
  exact ofLocal?_utc t

end Statechart.Timestamp

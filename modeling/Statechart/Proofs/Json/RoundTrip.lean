import Statechart.Json.Reader
import Statechart.Json.Writer
import Statechart.Proofs.Text.Decimal

namespace Statechart.Json

variable {layout : Layout} {depth : Nat} {rest cs : List Char} {c : Char} {n : Nat}

/-- A document that says all that it means: its texts and names are readable and its numbers are integers. -/
inductive Value.Plain : Value → Prop where
  | null : Plain .null
  | bool (value : Bool) : Plain (.bool value)
  | integer (value : Int) : Plain (.integer value)
  | text (content : String) : Plain (.text (some content))
  | array {elements : List Value} (plain : ∀ element ∈ elements, Plain element) : Plain (.array elements)
  | object {members : List (Option String × Value)} (named : ∀ entry ∈ members, entry.1.isSome)
      (plain : ∀ entry ∈ members, Plain entry.2) : Plain (.object members)

section Text

theorem hex4?_control : ∀ n < 32, hex4? '0' '0' (hexDigit (n / 16)) (hexDigit (n % 16)) = some n := by decide

theorem pieces?_escape (c : Char) (cs : List Char) :
    pieces? (escape c ++ cs) = (pieces? cs).map fun (pieces, rest) => (.char c :: pieces, rest) := by
  unfold escape
  split
  case h_8 =>
    split
    · rename_i control
      have high : isHighSurrogate c.toNat = false := by
        simp [isHighSurrogate]
        omega
      have low : isLowSurrogate c.toNat = false := by
        simp [isLowSurrogate]
        omega
      simp only [List.cons_append, List.nil_append, pieces?, hex4?_control _ control, Option.bind_some, high, low,
        Bool.false_eq_true, or_self, if_false, Char.ofNat_toNat]
    · rename_i quote backslash _ _ _ _ _ printable
      rw [List.singleton_append, pieces?, if_neg printable]
      · exact quote
      · exact fun _ _ _ _ _ same _ => backslash same
      · exact fun _ _ same _ => backslash same
  all_goals rfl

theorem pieces?_escaped (content rest : List Char) :
    pieces? (content.flatMap escape ++ '"' :: rest) = some (content.map .char, rest) := by
  induction content with
  | nil => rfl
  | cons c cs ih =>
    rw [List.flatMap_cons, List.append_assoc, pieces?_escape, ih]
    rfl

theorem join?_chars (content : List Char) : join? (content.map .char) = some content := by
  induction content with
  | nil => rfl
  | cons c cs ih =>
    rw [List.map_cons, join?, ih]
    rfl

theorem text?_writeText (s : String) (rest : List Char) :
    ∃ tail, writeText s ++ rest = '"' :: tail ∧ text? tail = some (some s, rest) := by
  refine ⟨s.toList.flatMap escape ++ '"' :: rest, by simp [writeText], ?_⟩
  unfold text?
  simp only [pieces?_escaped, Option.map_some, join?_chars, String.ofList_toList]

end Text

section Number

def Stops (cs : List Char) : Prop := ∀ c ∈ cs.head?, c = ',' ∨ c = ']' ∨ c = '\x7d' ∨ isBlank c

theorem Stops.cases (stops : Stops (c :: rest)) :
    c = ',' ∨ c = ']' ∨ c = '\x7d' ∨ c = ' ' ∨ c = '\t' ∨ c = '\n' ∨ c = '\r' := by
  simpa [isBlank] using stops c rfl

theorem Stops.ends (stops : Stops rest) : Text.Ends rest := by
  cases rest with
  | nil => exact fun _ first => by cases first
  | cons c cs =>
    apply Text.ends_cons
    rcases stops.cases with rfl | rfl | rfl | rfl | rfl | rfl | rfl <;> decide

theorem whole?_digits (n : Nat) (ends : Text.Ends rest) : whole? (Text.digits n ++ rest) = some (n, rest) := by
  rcases Nat.eq_zero_or_pos n with rfl | positive
  · have none : rest.head?.any Char.isDigit = false := by
      cases rest with
      | nil => rfl
      | cons c cs => simp [ends c rfl]
    have zero : Text.digits 0 = ['0'] := rfl
    rw [zero, List.singleton_append, whole?, none]
    rfl
  · have read := Text.allDigits?_append (fun _ => Text.isDigit_of_mem_digits) (Text.digits_ne_nil n) ends
    have first := Text.head?_digits positive
    obtain ⟨c, cs, digits⟩ := List.exists_cons_of_ne_nil (Text.digits_ne_nil n)
    rw [whole?]
    · simp only [read, Option.map_some, Text.ofDigits_digits]
    · intro tail zero
      rw [digits, List.cons_append] at zero
      rw [digits, List.head?_cons, (List.cons.inj zero).1] at first
      exact first rfl

theorem number?_digits (negative : Bool) (n : Nat) (proper : negative → 0 < n) (stops : Stops rest) :
    number? negative (Text.digits n ++ rest) = some (.integer (if negative then -n else n), rest) := by
  have fraction : fraction? rest = some (false, rest) := by
    cases rest with
    | nil => rfl
    | cons c cs => rcases stops.cases with rfl | rfl | rfl | rfl | rfl | rfl | rfl <;> rfl
  have exponent : exponent? rest = some (false, rest) := by
    cases rest with
    | nil => rfl
    | cons c cs => rcases stops.cases with rfl | rfl | rfl | rfl | rfl | rfl | rfl <;> rfl
  unfold number?
  simp only [whole?_digits n stops.ends, fraction, exponent, Option.bind_eq_bind, Option.bind_some, Bool.false_or]
  cases negative with
  | false => rfl
  | true =>
    have nonzero : (n == 0) = false := by
      have positive := proper rfl
      simp
      omega
    rw [nonzero]
    rfl

end Number

section Blank

variable {blanks : List Char} (blank : ∀ c ∈ blanks, isBlank c)

theorem skipBlank_cons (visible : isBlank c = false) (cs : List Char) : skipBlank (c :: cs) = c :: cs :=
  List.dropWhile_cons_of_neg (by simp [visible])

theorem isBlank_of_isDigit (digit : c.isDigit) : isBlank c = false := by
  rw [← Bool.not_eq_true]
  intro blank
  have cases : c = ' ' ∨ c = '\t' ∨ c = '\n' ∨ c = '\r' := of_decide_eq_true blank
  rcases cases with rfl | rfl | rfl | rfl <;> cases digit

theorem isBlank_of_mem_line (member : c ∈ layout.line depth) : isBlank c := by
  cases layout with
  | compact => cases member
  | indented =>
    rcases List.mem_cons.mp member with rfl | space
    · decide
    · rw [List.eq_of_mem_replicate space]
      decide

theorem exists_colon (layout : Layout) : ∃ blanks, layout.colon = ':' :: blanks ∧ ∀ c ∈ blanks, isBlank c := by
  cases layout with
  | compact => exact ⟨[], rfl, fun _ member => by cases member⟩
  | indented =>
    refine ⟨[' '], rfl, fun c member => ?_⟩
    rw [List.mem_singleton.mp member]
    decide

include blank

theorem skipBlank_append (cs : List Char) : skipBlank (blanks ++ cs) = skipBlank cs := List.dropWhile_append_of_pos blank

theorem value?_append (fuel : Nat) (cs : List Char) : value? fuel (blanks ++ cs) = value? fuel cs := by
  cases fuel with
  | zero => rw [value?, value?]
  | succ fuel => rw [value?, value?, skipBlank_append blank]

theorem elements?_append (fuel : Nat) (cs : List Char) : elements? fuel (blanks ++ cs) = elements? fuel cs := by
  cases fuel with
  | zero => rw [elements?, elements?]
  | succ fuel => rw [elements?, elements?, value?_append blank]

theorem members?_append (fuel : Nat) (cs : List Char) : members? fuel (blanks ++ cs) = members? fuel cs := by
  cases fuel with
  | zero => rw [members?, members?]
  | succ fuel => rw [members?, members?, skipBlank_append blank]

end Blank

/-- A value is read wherever it was written, by a reader that may take it apart as often as it is long. -/
def Reads (layout : Layout) (value : Value) : Prop :=
  ∀ depth fuel rest, Stops rest → (write layout depth value).length ≤ fuel →
    value? fuel (write layout depth value ++ rest) = some (value, rest)

theorem stops_line (depth : Nat) (closing : c = ']' ∨ c = '\x7d') (rest : List Char) :
    Stops (layout.line depth ++ c :: rest) := by
  intro d first
  cases layout with
  | compact =>
    cases first
    rcases closing with rfl | rfl
    · exact .inr (.inl rfl)
    · exact .inr (.inr (.inl rfl))
  | indented =>
    cases first
    exact .inr (.inr (.inr (by decide)))

theorem stops_comma (cs : List Char) : Stops (',' :: cs) := by
  rintro _ ⟨⟩
  exact .inl rfl

theorem exists_write (layout : Layout) (depth : Nat) (value : Value) :
    ∃ c cs, write layout depth value = c :: cs ∧ isBlank c = false ∧ c ≠ ']' := by
  cases value with
  | null => exact ⟨'n', _, rfl, by decide, by decide⟩
  | bool value => cases value <;> exact ⟨_, _, rfl, by decide, by decide⟩
  | integer n =>
    rw [write]
    cases n with
    | ofNat n =>
      obtain ⟨c, cs, digits, digit⟩ := Text.exists_digits n
      refine ⟨c, cs, digits, isBlank_of_isDigit digit, ?_⟩
      rintro rfl
      cases digit
    | negSucc n => exact ⟨'-', _, rfl, by decide, by decide⟩
  | decimal => exact ⟨'0', _, rfl, by decide, by decide⟩
  | text content? => cases content? <;> exact ⟨'"', _, rfl, by decide, by decide⟩
  | array elements =>
    cases elements with
    | nil => exact ⟨'[', _, by rw [write], by decide, by decide⟩
    | cons element elements => exact ⟨'[', _, by rw [write]; rfl, by decide, by decide⟩
  | object members =>
    cases members with
    | nil => exact ⟨'\x7b', _, by rw [write], by decide, by decide⟩
    | cons entry members => exact ⟨'\x7b', _, by rw [write]; rfl, by decide, by decide⟩

theorem reads_of_succ {value : Value} (read : ∀ depth fuel rest, Stops rest → (write layout depth value).length ≤ fuel + 1 →
    value? (fuel + 1) (write layout depth value ++ rest) = some (value, rest)) : Reads layout value := by
  intro depth fuel rest stops enough
  cases fuel with
  | zero =>
    obtain ⟨c, cs, starts, _⟩ := exists_write layout depth value
    rw [starts] at enough
    cases enough
  | succ fuel => exact read depth fuel rest stops enough

theorem value?_digit (digit : c.isDigit) (fuel : Nat) (cs : List Char) :
    value? (fuel + 1) (c :: cs) = number? false (c :: cs) := by
  have other {d : Char} {tail : List Char} (same : c :: cs = d :: tail) : d.isDigit := (List.cons.inj same).1 ▸ digit
  rw [value?, skipBlank_cons (isBlank_of_isDigit digit)]
  split
  case h_8 => rfl
  all_goals
    rename_i same
    cases other same

theorem reads_integer (n : Int) : Reads layout (.integer n) := by
  apply reads_of_succ
  intro depth fuel rest stops _
  rw [write]
  cases n with
  | ofNat n =>
    obtain ⟨c, cs, digits, digit⟩ := Text.exists_digits n
    have read := number?_digits false n (fun negative => by cases negative) stops
    have written : Text.decimal (.ofNat n) = Text.digits n := rfl
    rw [written, digits, List.cons_append, value?_digit digit, ← List.cons_append, ← digits, read]
    rfl
  | negSucc n =>
    have read := number?_digits true (n + 1) (fun _ => Nat.succ_pos n) stops
    have written : Text.decimal (.negSucc n) = '-' :: Text.digits (n + 1) := rfl
    rw [written, List.cons_append, value?, skipBlank_cons (by decide)]
    exact read

theorem elements?_write {element : Value} {elements : List Value} {fuel : Nat}
    (reads : ∀ e ∈ element :: elements, Reads layout e)
    (enough : (write layout depth element).length + (writeElements layout depth elements).length < fuel)
    (closing : Nat) (rest : List Char) :
    elements? fuel (write layout depth element ++ (writeElements layout depth elements ++
      (layout.line closing ++ ']' :: rest))) = some (element :: elements, rest) := by
  induction elements generalizing element fuel with
  | nil =>
    obtain ⟨fuel, rfl⟩ := Nat.exists_eq_succ_of_ne_zero (Nat.ne_zero_of_lt enough)
    rw [writeElements, List.nil_append, elements?]
    rw [reads element List.mem_cons_self depth fuel _ (stops_line closing (.inl rfl) rest) (by omega)]
    simp only [Option.bind_some, skipBlank_append (fun _ => isBlank_of_mem_line), skipBlank_cons (c := ']') (by decide)]
  | cons next elements ih =>
    obtain ⟨fuel, rfl⟩ := Nat.exists_eq_succ_of_ne_zero (Nat.ne_zero_of_lt enough)
    rw [writeElements] at enough ⊢
    simp only [List.length_cons, List.length_append] at enough
    have fits : (write layout depth next).length + (writeElements layout depth elements).length < fuel := by omega
    have others := ih (fun e member => reads e (List.mem_cons_of_mem _ member)) fits
    simp only [List.cons_append, List.append_assoc]
    rw [elements?, reads element List.mem_cons_self depth fuel _ (stops_comma _) (by omega)]
    simp only [Option.bind_some, skipBlank_cons (c := ',') (by decide),
      elements?_append (fun _ => isBlank_of_mem_line), others, Option.map_some]

def membersRest? (fuel : Nat) (entry : Option String × Value) :
    List Char → Option (List (Option String × Value) × List Char)
  | ',' :: rest => (members? fuel rest).map fun (members, rest) => (entry :: members, rest)
  | '\x7d' :: rest => some ([entry], rest)
  | _ => none

theorem members?_entry {name : String} {value : Value} {fuel : Nat} {tail : List Char} (reads : Reads layout value)
    (stops : Stops tail) (enough : (write layout depth value).length ≤ fuel) :
    members? (fuel + 1) (writeText? (some name) ++ (layout.colon ++ (write layout depth value ++ tail))) =
      membersRest? fuel (some name, value) (skipBlank tail) := by
  obtain ⟨blanks, colon, blank⟩ := exists_colon layout
  obtain ⟨content, starts, read⟩ := text?_writeText name (layout.colon ++ (write layout depth value ++ tail))
  rw [writeText?, starts, members?, skipBlank_cons (by decide)]
  simp only [read, Option.bind_some, colon, List.cons_append, skipBlank_cons (c := ':') (by decide), value?_append blank,
    reads depth fuel tail stops enough]
  rfl

theorem members?_write {name? : Option String} {value : Value} {members : List (Option String × Value)} {fuel : Nat}
    (named : ∀ entry ∈ (name?, value) :: members, entry.1.isSome)
    (reads : ∀ entry ∈ (name?, value) :: members, Reads layout entry.2)
    (enough : (write layout depth value).length + (writeMembers layout depth members).length < fuel)
    (closing : Nat) (rest : List Char) :
    members? fuel (writeText? name? ++ (layout.colon ++ (write layout depth value ++ (writeMembers layout depth members ++
      (layout.line closing ++ '\x7d' :: rest))))) = some ((name?, value) :: members, rest) := by
  induction members generalizing name? value fuel with
  | nil =>
    obtain ⟨fuel, rfl⟩ := Nat.exists_eq_succ_of_ne_zero (Nat.ne_zero_of_lt enough)
    obtain ⟨name, rfl⟩ := Option.isSome_iff_exists.mp (named _ List.mem_cons_self)
    have first : Reads layout value := reads _ List.mem_cons_self
    rw [writeMembers, List.nil_append, members?_entry first (stops_line closing (.inr rfl) rest) (by omega)]
    rw [skipBlank_append (fun _ => isBlank_of_mem_line), skipBlank_cons (by decide), membersRest?]
  | cons next members ih =>
    obtain ⟨fuel, rfl⟩ := Nat.exists_eq_succ_of_ne_zero (Nat.ne_zero_of_lt enough)
    obtain ⟨name, rfl⟩ := Option.isSome_iff_exists.mp (named _ List.mem_cons_self)
    obtain ⟨name?', value'⟩ := next
    have first : Reads layout value := reads _ List.mem_cons_self
    rw [writeMembers] at enough ⊢
    simp only [List.length_cons, List.length_append] at enough
    have fits : (write layout depth value').length + (writeMembers layout depth members).length < fuel := by omega
    have others := ih (fun entry member => named entry (List.mem_cons_of_mem _ member))
      (fun entry member => reads entry (List.mem_cons_of_mem _ member)) fits
    simp only [List.cons_append, List.append_assoc]
    rw [members?_entry first (stops_comma _) (by omega)]
    rw [skipBlank_cons (by decide), membersRest?, members?_append (fun _ => isBlank_of_mem_line), others,
      Option.map_some]

theorem reads_text (content : String) : Reads layout (.text (some content)) := by
  apply reads_of_succ
  intro depth fuel rest _ _
  obtain ⟨_, starts, read⟩ := text?_writeText content rest
  rw [write, writeText?, starts, value?, skipBlank_cons (by decide)]
  simp only [read, Option.map_some]

theorem reads_array {elements : List Value} (reads : ∀ element ∈ elements, Reads layout element) :
    Reads layout (.array elements) := by
  apply reads_of_succ
  intro depth fuel rest _ enough
  cases elements with
  | nil =>
    rw [write]
    rfl
  | cons element elements =>
    rw [write] at enough ⊢
    simp only [List.length_cons, List.length_append, List.length_nil] at enough
    have fits : (write layout (depth + 1) element).length + (writeElements layout (depth + 1) elements).length < fuel := by
      omega
    have read := elements?_write reads fits depth rest
    obtain ⟨c, cs, starts, visible, other⟩ := exists_write layout (depth + 1) element
    simp only [List.cons_append, List.append_assoc, List.nil_append]
    rw [value?, skipBlank_cons (by decide)]
    simp only [skipBlank_append (fun _ => isBlank_of_mem_line)]
    rw [starts, List.cons_append] at read ⊢
    rw [skipBlank_cons visible]
    split
    · rename_i closed
      exact absurd (List.cons.inj closed).1 other
    · rw [read]
      rfl

theorem reads_object {members : List (Option String × Value)} (named : ∀ entry ∈ members, entry.1.isSome)
    (reads : ∀ entry ∈ members, Reads layout entry.2) : Reads layout (.object members) := by
  apply reads_of_succ
  intro depth fuel rest _ enough
  cases members with
  | nil =>
    rw [write]
    rfl
  | cons entry members =>
    obtain ⟨name?, value⟩ := entry
    rw [write] at enough ⊢
    simp only [List.length_cons, List.length_append, List.length_nil] at enough
    have fits : (write layout (depth + 1) value).length + (writeMembers layout (depth + 1) members).length < fuel := by
      omega
    have read := members?_write named reads fits depth rest
    obtain ⟨name, rfl⟩ := Option.isSome_iff_exists.mp (named _ List.mem_cons_self)
    obtain ⟨tail, starts, _⟩ := text?_writeText name (layout.colon ++ (write layout (depth + 1) value ++
      (writeMembers layout (depth + 1) members ++ (layout.line depth ++ '\x7d' :: rest))))
    simp only [List.cons_append, List.append_assoc, List.nil_append]
    rw [value?, skipBlank_cons (by decide)]
    simp only [skipBlank_append (fun _ => isBlank_of_mem_line)]
    rw [writeText?, starts] at read ⊢
    rw [skipBlank_cons (by decide)]
    show (members? fuel ('"' :: tail)).map _ = _
    rw [read]
    rfl

theorem Value.Plain.reads {value : Value} (plain : value.Plain) (layout : Layout) : Reads layout value := by
  induction plain with
  | null => exact reads_of_succ fun _ _ _ _ _ => rfl
  | bool value => cases value <;> exact reads_of_succ fun _ _ _ _ _ => rfl
  | integer n => exact reads_integer n
  | text content => exact reads_text content
  | array plain ih => exact reads_array ih
  | object named plain ih => exact reads_object named ih

theorem parse?_write {value : Value} (plain : value.Plain) (layout : Layout) :
    parse? (String.ofList (write layout 0 value)) = some value := by
  have read := plain.reads layout 0 ((write layout 0 value).length + 1) [] (fun _ first => by cases first) (by omega)
  rw [List.append_nil] at read
  unfold parse?
  simp only [String.toList_ofList, read, Option.bind_some]
  rfl

section Record

def Value.record (names : List String) (values : List Value) : Value := .object ((names.map some).zip values)

variable {names : List String} {values : List Value}

theorem Value.Plain.record (plain : ∀ value ∈ values, value.Plain) (names : List String) :
    (Value.record names values).Plain := by
  apply Plain.object
  · intro entry member
    obtain ⟨_, _, same⟩ := List.mem_map.mp (List.of_mem_zip member).1
    rw [← same]
    rfl
  · intro entry member
    exact plain entry.2 (List.of_mem_zip member).2

theorem length_filter_record (distinct : names.Nodup) (values : List Value) (name : String) :
    (((names.map some).zip values).filter fun entry => entry.1 = some name).length ≤ 1 := by
  induction names generalizing values with
  | nil => exact Nat.zero_le 1
  | cons first names ih =>
    cases values with
    | nil => exact Nat.zero_le 1
    | cons value values =>
      obtain ⟨fresh, distinct⟩ := List.nodup_cons.mp distinct
      rw [List.map_cons, List.zip_cons_cons]
      by_cases same : first = name
      · subst same
        rw [List.filter_cons_of_pos (by simp), List.length_cons, List.filter_eq_nil_iff.mpr]
        · exact Nat.le_refl 1
        · intro entry member found
          obtain ⟨name, known, same⟩ := List.mem_map.mp (List.of_mem_zip member).1
          cases same.trans (of_decide_eq_true found)
          exact fresh known
      · rw [List.filter_cons_of_neg (by simpa using same)]
        exact ih distinct values

theorem lookup_record (distinct : names.Nodup) (complete : names.length = values.length) :
    (names.map fun name => (((names.map some).zip values).find? fun entry => entry.1 = some name).map Prod.snd) =
      values.map some := by
  induction names generalizing values with
  | nil =>
    cases values with
    | nil => rfl
    | cons value values => cases complete
  | cons first names ih =>
    cases values with
    | nil => cases complete
    | cons value values =>
      obtain ⟨fresh, distinct⟩ := List.nodup_cons.mp distinct
      have others := ih distinct (Nat.succ.inj complete)
      simp only [List.map_cons, List.zip_cons_cons]
      rw [List.find?_cons_of_pos (by simp), ← others]
      congr 1
      apply List.map_congr_left
      intro name member
      rw [List.find?_cons_of_neg]
      intro found
      cases of_decide_eq_true found
      exact fresh member

theorem fields?_record (distinct : names.Nodup) (complete : names.length = values.length) :
    (Value.record names values).fields? names = some (values.map some) := by
  show Value.members? names ((names.map some).zip values) = _
  unfold Value.members?
  rw [if_pos, lookup_record distinct complete]
  constructor
  · rw [List.all_eq_true]
    intro entry member
    obtain ⟨_, _, same⟩ := List.mem_map.mp (List.of_mem_zip member).1
    rw [← same]
    rfl
  · rw [List.all_eq_true]
    exact fun name _ => decide_eq_true (length_filter_record distinct values name)

end Record

end Statechart.Json

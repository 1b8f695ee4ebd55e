import Blocklist.Proofs.JsonGrammar
import Mathlib.Data.List.Basic

/-!
# What readers read

`Reader.Reads` relates a reader and a text to the value that is read and the text that is left,
wherever the text begins. It composes along binds, so that a reader is followed by its own shape.
The rules below take the parts of a JSON text from the grammar, in every way they may be written,
and say what is read of them and that they can be passed over: strings, numbers, scalars.
-/

namespace Blocklist.Json

namespace Reader

def whole (reader : Reader α) : Reader α := do
  let value ← reader
  match ← peekToken with
  | none => pure value
  | some _ => failPeek .trailingCharacters

/-- A reader takes a text to a value and leaves the rest of the text. -/
def Reads (reader : Reader α) (text : List Char) (value : α) (rest : List Char) : Prop :=
  ∀ position, ∃ later, reader ⟨text, position⟩ = .ok (value, ⟨rest, later⟩)

namespace Reads

variable {reader : Reader α} {next : α → Reader β} {text middle rest : List Char}
variable {value : α} {result : β}

theorem pure (value : α) (text : List Char) :
    Reads (pure value : Reader α) text value text := by
  intro position
  exact ⟨position, rfl⟩

theorem bind (front : Reads reader text value middle)
    (back : Reads (next value) middle result rest) : Reads (reader >>= next) text result rest := by
  intro position
  obtain ⟨between, first⟩ := front position
  obtain ⟨later, second⟩ := back between
  refine ⟨later, ?_⟩
  change (reader ⟨text, position⟩ >>= fun answer => next answer.1 answer.2) = _
  rw [first]
  exact second

theorem map {f : α → β} (front : Reads reader text value rest) :
    Reads (f <$> reader) text (f value) rest := by
  rw [map_eq_pure_bind]
  exact front.bind (.pure _ rest)

theorem peek : Reads peek text text.head? text := by
  intro position
  exact ⟨position, rfl⟩

theorem skip {c : Char} : Reads skip (c :: rest) () rest := by
  intro position
  exact ⟨position.after c, rfl⟩

/-- Taking characters stops before the first other one. -/
theorem takeWhile {p : Char → Bool} {taken : List Char} (all : ∀ c ∈ taken, p c)
    (stop : ∀ c ∈ rest.head?, p c = false) : Reads (takeWhile p) (taken ++ rest) taken rest := by
  have front : (taken ++ rest).takeWhile p = taken ∧ (taken ++ rest).dropWhile p = rest := by
    rw [List.takeWhile_append_of_pos all, List.dropWhile_append_of_pos all]
    cases rest with
    | nil => simp
    | cons c rest => simp [stop c rfl]
  intro position
  refine ⟨taken.foldl Position.after position, ?_⟩
  simp only [Reader.takeWhile, Cursor.takeWhile, front]

/-- The next token is found behind white space. -/
theorem peekToken {space : List Char} (blank : ∀ c ∈ space, Cursor.isSpace c)
    (stop : ∀ c ∈ rest.head?, Cursor.isSpace c = false) :
    Reads peekToken (space ++ rest) rest.head? rest := by
  intro position
  obtain ⟨later, taken⟩ := takeWhile blank stop position
  refine ⟨later, ?_⟩
  have left : (Cursor.mk (space ++ rest) position).skipSpace = ⟨rest, later⟩ :=
    congrArg Prod.snd (Except.ok.inj taken)
  rw [Reader.peekToken, left]

theorem literal (letters : List Char) : Reads (literal letters) (letters ++ rest) () rest := by
  induction letters with
  | nil => exact .pure () rest
  | cons c letters ih =>
    refine peek.bind ?_
    simp only [List.cons_append, List.head?_cons, if_true]
    exact skip.bind ih

/-- A reader that leaves nothing but white space reads the whole text. -/
theorem readAll {text : String} {after : List Char} (reads : Reads reader text.toList value after)
    (blank : Blank after) : readAll reader text = .ok value := by
  have ended : Reads Reader.peekToken after none [] := by
    have ended := peekToken blank (show ∀ c ∈ [].head?, Cursor.isSpace c = false from nofun)
    rwa [List.append_nil] at ended
  have complete : Reads (whole reader) text.toList value [] :=
    reads.bind (ended.bind (.pure value []))
  obtain ⟨later, answers⟩ := complete .start
  exact congrArg (Except.map Prod.fst) answers

end Reads

end Reader

/-! ## Strings -/

theorem Quoted.exists_cons {written : List Char} {text : String} (quoted : Quoted written text) :
    ∃ tail, written = '"' :: tail := by
  obtain ⟨letters, -, written⟩ := quoted
  exact ⟨_, written⟩

namespace Cursor

variable {digits written rest : List Char} {n : Nat} {c : Char}

theorem code_append (four : digits.length = 4) (known : hexDigitsValue? digits = some n)
    (rest : List Char) (position : Position) :
    ∃ later, code ⟨digits ++ rest, position⟩ = .ok (n, ⟨rest, later⟩) := by
  refine ⟨digits.foldl Position.after position, ?_⟩
  simp only [code, List.take_left' four, List.drop_left' four, known, four, if_true]

/-- The characters of an escape that has been read are passed over. -/
theorem stringBody_append (taken rest : List Char) (position : Position) (read : List Char) :
    ∃ later, stringBody (taken ++ rest) position taken.length read =
      stringBody rest later 0 read := by
  induction taken generalizing position with
  | nil => exact ⟨position, rfl⟩
  | cons c taken ih => exact ih (position.after c)

theorem skipStringBody_append (taken rest : List Char) (position : Position) :
    ∃ later, skipStringBody (taken ++ rest) position taken.length =
      skipStringBody rest later 0 := by
  induction taken generalizing position with
  | nil => exact ⟨position, rfl⟩
  | cons c taken ih => exact ih (position.after c)

/-- An escape is read as its character. -/
theorem stringBody_escape (written : List Char) {position : Position}
    (escaped : escape ⟨written ++ rest, position.after '\\'⟩ = .ok (c, written.length))
    (read : List Char) :
    ∃ later, stringBody ('\\' :: (written ++ rest)) position 0 read =
      stringBody rest later 0 (c :: read) := by
  obtain ⟨later, passed⟩ := stringBody_append written rest (position.after '\\') (c :: read)
  refine ⟨later, ?_⟩
  rw [stringBody, escaped]
  exact passed

theorem skipStringBody_escape (written : List Char) {position : Position}
    (escaped : escapeLength ⟨written ++ rest, position.after '\\'⟩ = .ok written.length) :
    ∃ later, skipStringBody ('\\' :: (written ++ rest)) position 0 =
      skipStringBody rest later 0 := by
  obtain ⟨later, passed⟩ := skipStringBody_append written rest (position.after '\\')
  refine ⟨later, ?_⟩
  rw [skipStringBody, escaped]
  exact passed

/-- A code is passed over wherever it belongs. -/
theorem skipStringBody_code (four : digits.length = 4) (known : hexDigitsValue? digits = some n)
    (rest : List Char) (position : Position) :
    ∃ later, skipStringBody ('\\' :: 'u' :: (digits ++ rest)) position 0 =
      skipStringBody rest later 0 := by
  obtain ⟨later, read⟩ := code_append four known rest ((position.after '\\').after 'u')
  have five : ('u' :: digits).length = 5 := congrArg (· + 1) four
  apply skipStringBody_escape ('u' :: digits)
  rw [five]
  exact congrArg (Except.map fun _ => 5) read

/-- A short escape is none of a code. -/
theorem ne_u_of_shortEscape? {meant : Char} (known : shortEscape? c = some meant) : c ≠ 'u' := by
  rintro rfl
  contradiction

/-- The code of a character is read as the character. -/
theorem codePoint_code (four : digits.length = 4) (known : hexDigitsValue? digits = some c.toNat)
    (rest : List Char) (position : Position) :
    codePoint ⟨digits ++ rest, position⟩ = .ok (c, 4) := by
  obtain ⟨later, read⟩ := code_append four known rest position
  have basic : isTrailingSurrogate c.toNat = false ∧ isLeadingSurrogate c.toNat = false := by
    have valid : c.toNat < 0xD800 ∨ 0xDFFF < c.toNat ∧ c.toNat < 0x110000 := c.valid
    simp only [isTrailingSurrogate, isLeadingSurrogate, Bool.and_eq_false_iff,
      decide_eq_false_iff_not]
    omega
  rw [codePoint, read]
  simp [bind, Except.bind, basic, Char.ofNat_toNat]

/-- Two surrogates are read as the character of their pair. -/
theorem codePoint_pair {others : List Char} {leading trailing : Nat} (four : digits.length = 4)
    (known : hexDigitsValue? digits = some leading) (leads : isLeadingSurrogate leading)
    (fourOthers : others.length = 4) (knownOthers : hexDigitsValue? others = some trailing)
    (trails : isTrailingSurrogate trailing) (rest : List Char) (position : Position) :
    codePoint ⟨digits ++ '\\' :: 'u' :: (others ++ rest), position⟩ =
      .ok (Char.ofNat (pairValue leading trailing), 10) := by
  obtain ⟨between, first⟩ := code_append four known ('\\' :: 'u' :: (others ++ rest)) position
  obtain ⟨later, second⟩ :=
    code_append fourOthers knownOthers rest ((between.after '\\').after 'u')
  have noTrail : isTrailingSurrogate leading = false := by
    simp only [isTrailingSurrogate, isLeadingSurrogate, Bool.and_eq_true, decide_eq_true_eq,
      Bool.and_eq_false_iff, decide_eq_false_iff_not] at leads ⊢
    omega
  rw [codePoint, first]
  simp only [bind, Except.bind, noTrail, leads, expect, advance, second, trails, if_true,
    Bool.false_eq_true, if_false]

theorem escape_u {position : Position} (read : codePoint ⟨rest, position.after 'u'⟩ = .ok (c, n)) :
    escape ⟨'u' :: rest, position⟩ = .ok (c, n + 1) :=
  congrArg (Except.map fun (answer : Char × Nat) => (answer.1, answer.2 + 1)) read

/-- A character is read from any of the ways to write it. -/
theorem stringBody_letter (letter : Letter written c) (rest : List Char) (position : Position)
    (read : List Char) :
    ∃ later, stringBody (written ++ rest) position 0 read =
      stringBody rest later 0 (c :: read) := by
  cases letter with
  | plain visible noQuote noBackslash =>
    refine ⟨position.after c, ?_⟩
    rw [List.singleton_append, stringBody, if_neg (Nat.not_lt.mpr visible)]
    · exact noQuote
    · exact noBackslash
  | @short mark _ known =>
    apply stringBody_escape [mark]
    rw [escape]
    simp [ne_u_of_shortEscape? known, known]
  | @code digits _ four known =>
    apply stringBody_escape ('u' :: digits)
    rw [List.length_cons, four]
    exact escape_u (codePoint_code four known rest _)
  | @pair digits others leading trailing four known leads fourOthers knownOthers trails =>
    have ten : (digits ++ '\\' :: 'u' :: others).length = 10 := by simp [four, fourOthers]
    apply stringBody_escape ('u' :: (digits ++ '\\' :: 'u' :: others))
    rw [List.length_cons, ten, List.cons_append, List.append_assoc]
    exact escape_u (codePoint_pair four known leads fourOthers knownOthers trails rest _)

/-- The ways to write a character are passed over. -/
theorem skipStringBody_letter (letter : Letter written c) (rest : List Char)
    (position : Position) :
    ∃ later, skipStringBody (written ++ rest) position 0 = skipStringBody rest later 0 := by
  cases letter with
  | plain visible noQuote noBackslash =>
    refine ⟨position.after c, ?_⟩
    rw [List.singleton_append, skipStringBody, if_neg (Nat.not_lt.mpr visible)]
    · exact noQuote
    · exact noBackslash
  | @short mark _ known =>
    apply skipStringBody_escape [mark]
    rw [escapeLength]
    simp [ne_u_of_shortEscape? known, known]
  | code four known => exact skipStringBody_code four known rest position
  | @pair digits others leading trailing four known leads fourOthers knownOthers trails =>
    obtain ⟨between, first⟩ :=
      skipStringBody_code four known ('\\' :: 'u' :: (others ++ rest)) position
    obtain ⟨later, second⟩ := skipStringBody_code fourOthers knownOthers rest between
    refine ⟨later, ?_⟩
    rw [List.cons_append, List.cons_append, List.append_assoc, List.cons_append, List.cons_append,
      first, second]

/-- The characters of a string are read up to the closing quote. -/
theorem stringBody_letters {letters meant : List Char} (means : Letters letters meant)
    (rest : List Char) (position : Position) (read : List Char) :
    ∃ later, stringBody (letters ++ '"' :: rest) position 0 read =
      .ok (String.ofList (read.reverse ++ meant), ⟨rest, later⟩) := by
  induction means generalizing position read with
  | nil =>
    refine ⟨position.after '"', ?_⟩
    rw [List.nil_append, List.append_nil, stringBody]
  | @cons letter letters c meant first _ ih =>
    obtain ⟨between, front⟩ := stringBody_letter first (letters ++ '"' :: rest) position read
    obtain ⟨later, others⟩ := ih between (c :: read)
    refine ⟨later, ?_⟩
    rw [List.append_assoc, front, others]
    simp

theorem skipStringBody_letters {letters meant : List Char} (means : Letters letters meant)
    (rest : List Char) (position : Position) :
    ∃ later, skipStringBody (letters ++ '"' :: rest) position 0 = .ok ⟨rest, later⟩ := by
  induction means generalizing position with
  | nil =>
    refine ⟨position.after '"', ?_⟩
    rw [List.nil_append, skipStringBody]
  | @cons letter letters c meant first _ ih =>
    obtain ⟨between, front⟩ := skipStringBody_letter first (letters ++ '"' :: rest) position
    obtain ⟨later, others⟩ := ih between
    refine ⟨later, ?_⟩
    rw [List.append_assoc, front, others]

end Cursor

namespace Reader.Reads

variable {written : List Char} {text : String}

/-- A string is read from its quotes. -/
theorem string (quoted : Quoted written text) (rest : List Char) :
    Reads string (written ++ rest) text rest := by
  obtain ⟨letters, means, rfl⟩ := quoted
  rw [List.cons_append, List.append_assoc, List.singleton_append]
  refine skip.bind ?_
  intro position
  obtain ⟨later, read⟩ := Cursor.stringBody_letters means rest position []
  refine ⟨later, read.trans ?_⟩
  rw [List.reverse_nil, List.nil_append, String.ofList_toList]

/-- A string is passed over from its quotes. -/
theorem skipString (quoted : Quoted written text) (rest : List Char) :
    Reads skipString (written ++ rest) () rest := by
  obtain ⟨letters, means, rfl⟩ := quoted
  rw [List.cons_append, List.append_assoc, List.singleton_append]
  refine skip.bind ?_
  intro position
  obtain ⟨later, passed⟩ := Cursor.skipStringBody_letters means rest position
  exact ⟨later, congrArg (Except.map ((), ·)) passed⟩

end Reader.Reads

/-! ## Numbers -/

/-- What may follow a number without belonging to it. -/
def EndsNumber (rest : List Char) : Prop :=
  ∀ c ∈ rest.head?, c.isDigit = false ∧ c ≠ '.' ∧ c ≠ 'e' ∧ c ≠ 'E'

theorem endsNumber_nil : EndsNumber [] := nofun

section

variable {written rest : List Char}

/-- An exponent neither goes on with the digits before it nor has a point. -/
theorem ExponentText.stops {exponent : Option (Bool × List Char)}
    (text : ExponentText exponent written) (ends : EndsNumber rest) :
    ∀ c ∈ (written ++ rest).head?, c.isDigit = false ∧ c ≠ '.' := by
  cases text with
  | none => exact fun c first => ⟨(ends c first).1, (ends c first).2.1⟩
  | some marks _ _ =>
    intro c first
    obtain rfl := Option.some.inj first
    rcases marks with rfl | rfl <;> decide

theorem FractionText.stops {fraction : Option (List Char)} (text : FractionText fraction written)
    (ends : ∀ c ∈ rest.head?, c.isDigit = false ∧ c ≠ '.') :
    ∀ c ∈ (written ++ rest).head?, c.isDigit = false := by
  cases text with
  | none => exact fun c first => (ends c first).1
  | some _ =>
    intro c first
    obtain rfl := Option.some.inj first
    rfl

/-- A number begins with its sign or with a digit. -/
theorem Numeral.Written.exists_cons {numeral : Numeral} (writes : numeral.Written written) :
    ∃ c tail, written = c :: tail ∧ (c = '-' ∨ c.isDigit) := by
  obtain ⟨⟨⟨some, all⟩, -⟩, -, -⟩ := writes
  obtain ⟨c, others, whole⟩ := List.exists_cons_of_ne_nil some
  rw [whole] at all ⊢
  cases numeral.negative with
  | true => exact ⟨'-', _, rfl, .inl rfl⟩
  | false => exact ⟨c, _, rfl, .inr (all c (.head others))⟩

end

/-- A number is an integer or a floating point number. -/
theorem Numeral.number_of_value {numeral : Numeral} {value : Json}
    (valued : numeral.value = .ok value) : (∃ n, value = .int n) ∨ ∃ x, value = .float x := by
  unfold Numeral.value at valued
  dsimp only at valued
  split at valued
  · split at valued
    · exact .inl ⟨_, (Except.ok.inj valued).symm⟩
    · split at valued
      · exact .inr ⟨_, (Except.ok.inj valued).symm⟩
      · exact .inl ⟨_, (Except.ok.inj valued).symm⟩
  · split at valued
    · exact .inr ⟨_, (Except.ok.inj valued).symm⟩
    · contradiction

namespace Reader.Reads

variable {digits written rest : List Char}

theorem wholeDigits (atEnd : Malformation) (whole : IsWhole digits)
    (stop : ∀ c ∈ rest.head?, c.isDigit = false) :
    Reads (wholeDigits atEnd) (digits ++ rest) digits rest := by
  obtain ⟨⟨some, all⟩, alone⟩ := whole
  have taken := takeWhile all stop
  obtain ⟨c, others, rfl⟩ := List.exists_cons_of_ne_nil some
  refine peek.bind ?_
  split
  · contradiction
  · next first =>
    rw [alone first]
    refine skip.bind (peek.bind ?_)
    split
    · next next first =>
      rw [if_neg (by simp [stop next first])]
      exact .pure _ rest
    · exact .pure _ rest
  · next first =>
    obtain rfl := Option.some.inj first
    rw [if_pos (all _ (.head _))]
    exact taken

theorem someDigits (atEnd : Malformation) (all : IsDigits digits)
    (stop : ∀ c ∈ rest.head?, c.isDigit = false) :
    Reads (someDigits atEnd) (digits ++ rest) digits rest := by
  refine (takeWhile all.2 stop).bind ?_
  split
  · exact absurd rfl all.1
  · exact .pure digits rest

theorem fraction (atEnd : Malformation) {digits? : Option (List Char)}
    (text : FractionText digits? written)
    (stop : ∀ c ∈ rest.head?, c.isDigit = false ∧ c ≠ '.') :
    Reads (fraction atEnd) (written ++ rest) digits? rest := by
  refine peek.bind ?_
  cases text with
  | none =>
    split
    · next point => exact absurd rfl (stop '.' point).2
    · exact .pure none rest
  | some all => exact skip.bind (map (someDigits atEnd all fun c first => (stop c first).1))

/-- The sign of an exponent is found, and left behind if there is one. -/
theorem sign {negative : Bool} {mark : List Char} {next : Option Char → Reader α} {result : α}
    (signed : SignText negative mark) (all : IsDigits digits)
    (reads : ∀ sign, (sign == some '-') = negative →
      Reads (next sign) (digits ++ rest) result written) :
    Reads (do
      let sign ← Reader.peek
      if sign == some '+' || sign == some '-' then Reader.skip
      next sign) (mark ++ (digits ++ rest)) result written := by
  refine peek.bind ?_
  cases signed with
  | none =>
    obtain ⟨c, others, rfl⟩ := List.exists_cons_of_ne_nil all.1
    have digit := all.2 c (.head others)
    have plus : c ≠ '+' := by rintro rfl; contradiction
    have minus : c ≠ '-' := by rintro rfl; contradiction
    have unsigned := reads (some c) (by simpa using minus)
    simpa [plus, minus] using unsigned
  | plus => exact skip.bind (reads (some '+') rfl)
  | minus => exact skip.bind (reads (some '-') rfl)

theorem exponent (atEnd : Malformation) {exponent? : Option (Bool × List Char)}
    (text : ExponentText exponent? written) (ends : EndsNumber rest) :
    Reads (exponent atEnd) (written ++ rest) exponent? rest := by
  refine peek.bind ?_
  cases text with
  | none =>
    split
    · next small => exact absurd rfl (ends 'e' small).2.2.1
    · next capital => exact absurd rfl (ends 'E' capital).2.2.2
    · exact .pure none rest
  | @some mark negative mark' digits marks signed all =>
    have behind : Reads (do
        let sign ← Reader.peek
        if sign == some '+' || sign == some '-' then Reader.skip
        let digits ← Reader.someDigits atEnd
        return (some (sign == some '-', digits) : Option (Bool × List Char)))
        (mark' ++ (digits ++ rest)) (some (negative, digits)) rest := by
      refine sign signed all fun sign same => ?_
      rw [same]
      exact (someDigits atEnd all fun c first => (ends c first).1).bind (.pure _ rest)
    rw [List.cons_append, List.append_assoc]
    rcases marks with rfl | rfl
    · exact skip.bind behind
    · exact skip.bind behind

/-- A number is scanned from its text. -/
theorem numeral (atEnd : Malformation) {scanned : Numeral} (writes : scanned.Written written)
    (ends : EndsNumber rest) : Reads (numeral atEnd) (written ++ rest) scanned rest := by
  obtain @⟨fractionText, exponentText, whole, fractional, exponential⟩ := writes
  have unsigned : Reads (do
      let whole ← Reader.wholeDigits atEnd
      let fraction ← Reader.fraction atEnd
      let exponent ← Reader.exponent atEnd
      return (⟨scanned.negative, whole, fraction, exponent⟩ : Numeral))
      (scanned.whole ++ (fractionText ++ (exponentText ++ rest))) scanned rest := by
    have stop := exponential.stops ends
    exact (wholeDigits atEnd whole (fractional.stops stop)).bind
      ((fraction atEnd fractional stop).bind
        ((exponent atEnd exponential ends).bind (.pure _ rest)))
  refine peek.bind ?_
  cases sign : scanned.negative with
  | true =>
    rw [sign] at unsigned
    simpa using skip.bind unsigned
  | false =>
    obtain ⟨digit, others, same⟩ := List.exists_cons_of_ne_nil whole.1.1
    have plain : (some digit == some '-') = false := by
      refine beq_eq_false_iff_ne.mpr fun minus => ?_
      obtain rfl := Option.some.inj minus
      exact absurd (whole.1.2 '-' (by simp [same])) (by decide)
    simp only [sign, same] at unsigned ⊢
    simp only [Bool.false_eq_true, if_false, List.nil_append, List.cons_append, List.append_assoc,
      List.head?_cons, plain] at unsigned ⊢
    exact unsigned

theorem number {scanned : Numeral} {value : Json} (writes : scanned.Written written)
    (valued : scanned.value = .ok value) (ends : EndsNumber rest) :
    Reads number (written ++ rest) value rest := by
  refine (Reads.numeral .endInValue writes ends).bind ?_
  rw [valued]
  exact .pure _ rest

end Reader.Reads

/-! ## Scalars -/

theorem ne_of_starts {c letter : Char} (starts : c = '-' ∨ c.isDigit)
    (other : letter ≠ '-' ∧ letter.isDigit = false) : c ≠ letter := by
  rintro rfl
  simp [other] at starts

theorem Reader.scalar_of_starts {c : Char} (starts : c = '-' ∨ c.isDigit) : scalar c = number := by
  unfold scalar
  split
  case h_5 => simp [starts]
  all_goals exact absurd rfl (ne_of_starts starts (by decide))

theorem Reader.skipScalar_of_starts {c : Char} (starts : c = '-' ∨ c.isDigit) :
    skipScalar c = discard (numeral .invalidNumber) := by
  unfold skipScalar
  split
  case h_5 => simp [starts]
  all_goals exact absurd rfl (ne_of_starts starts (by decide))

namespace ScalarSpells

open Reader

variable {value : Json} {written tail rest : List Char} {c : Char}

/-- A scalar begins with no white space and with no bracket. -/
theorem exists_cons (spells : ScalarSpells value written) :
    ∃ c tail, written = c :: tail ∧ Cursor.isSpace c = false ∧
      c ∉ ['[', ']', '\x7b', '\x7d'] := by
  cases spells with
  | null | truth | falsity => exact ⟨_, _, rfl, rfl, by decide⟩
  | number writes _ =>
    obtain ⟨c, tail, written, starts⟩ := writes.exists_cons
    refine ⟨c, tail, written, ?_, ?_⟩
    · simp [Cursor.isSpace, ne_of_starts starts]
    · simp [ne_of_starts starts]
  | str quoted =>
    obtain ⟨tail, written⟩ := quoted.exists_cons
    exact ⟨_, tail, written, rfl, by decide⟩

theorem reads (spells : ScalarSpells value (c :: tail)) (ends : EndsNumber rest) :
    Reads (scalar c) (c :: tail ++ rest) value rest := by
  generalize same : c :: tail = written at spells ⊢
  cases spells with
  | null | truth | falsity =>
    obtain ⟨rfl, -⟩ := List.cons.inj same
    exact Reads.skip.bind ((Reads.literal _).bind (.pure _ rest))
  | number writes valued =>
    obtain ⟨first, others, rfl, starts⟩ := writes.exists_cons
    obtain ⟨rfl, -⟩ := List.cons.inj same
    rw [scalar_of_starts starts]
    exact Reads.number writes valued ends
  | str quoted =>
    obtain ⟨others, rfl⟩ := quoted.exists_cons
    obtain ⟨rfl, -⟩ := List.cons.inj same
    exact (Reads.string quoted rest).map

theorem skips (spells : ScalarSpells value (c :: tail)) (ends : EndsNumber rest) :
    Reads (skipScalar c) (c :: tail ++ rest) () rest := by
  generalize same : c :: tail = written at spells ⊢
  cases spells with
  | null | truth | falsity =>
    obtain ⟨rfl, -⟩ := List.cons.inj same
    exact Reads.skip.bind (Reads.literal _)
  | number writes valued =>
    obtain ⟨first, others, rfl, starts⟩ := writes.exists_cons
    obtain ⟨rfl, -⟩ := List.cons.inj same
    rw [skipScalar_of_starts starts]
    exact (Reads.numeral .invalidNumber writes ends).map
  | str quoted =>
    obtain ⟨others, rfl⟩ := quoted.exists_cons
    obtain ⟨rfl, -⟩ := List.cons.inj same
    exact Reads.skipString quoted rest

end ScalarSpells

end Blocklist.Json

import Mathlib.Data.List.TakeWhile
import SmartAccount.Foundation.JsonGrammar

/-!
# Reading JSON texts

`read` finds the value of a text, with a bound on the nesting.  It accepts exactly the texts of
the grammar and finds the value they denote (`read_eq_some`), and the compact text of a value is
read as that value (`read_render`).
-/

namespace Foundation

namespace JsonText

/-! ## The reader -/

def skipSpace (cs : List Char) : List Char := cs.dropWhile isSpace

/-- The character behind a backslash and the escape mark. -/
def readUnicode : List Char → Option (Char × List Char)
  | a :: b :: c :: d :: cs =>
      match hexFour a b c d with
      | none => none
      | some n =>
          match scalar n with
          | some char => some (char, cs)
          | none =>
              match cs with
              | back :: mark :: a' :: b' :: c' :: d' :: cs =>
                  if back = backslash ∧ mark = escapeMark then
                    ((hexFour a' b' c' d').bind (surrogatePair n)).bind fun joined =>
                      (scalar joined).map fun char => (char, cs)
                  else none
              | _ => none
  | _ => none

/-- One character of a string. -/
def readPiece : List Char → Option (Char × List Char)
  | [] => none
  | c :: cs =>
      if c = backslash then
        match cs with
        | [] => none
        | e :: cs =>
            if e = escapeMark then readUnicode cs else (shortEscape e).map fun c => (c, cs)
      else if 0x20 ≤ c.toNat ∧ c ≠ quoteMark then some (c, cs)
      else none

/-- The rest of a string, up to its closing mark. -/
def readBody : Nat → List Char → Option (List Char × List Char)
  | 0, _ => none
  | _ + 1, [] => none
  | fuel + 1, c :: cs =>
      if c = quoteMark then some ([], cs)
      else
        (readPiece (c :: cs)).bind fun (c, rest) =>
          (readBody fuel rest).map fun (s, rest) => (c :: s, rest)

def readSign : List Char → List Char × List Char
  | c :: cs => if c = minusSign then ([minusSign], cs) else ([], c :: cs)
  | [] => ([], [])

def readFraction : List Char → Option (List Char × List Char)
  | c :: cs =>
      if c = point then
        if cs.takeWhile isDigit = [] then none
        else some (point :: cs.takeWhile isDigit, cs.dropWhile isDigit)
      else some ([], c :: cs)
  | [] => some ([], [])

def readExponentSign : List Char → List Char × List Char
  | c :: cs => if c = plusSign ∨ c = minusSign then ([c], cs) else ([], c :: cs)
  | [] => ([], [])

def readExponent : List Char → Option (List Char × List Char)
  | c :: cs =>
      if isExponentMark c then
        let (sign, cs) := readExponentSign cs
        if cs.takeWhile isDigit = [] then none
        else some (c :: (sign ++ cs.takeWhile isDigit), cs.dropWhile isDigit)
      else some ([], c :: cs)
  | [] => some ([], [])

def readNumber (exact : Nat) (cs : List Char) : Option (JsonValue × List Char) :=
  let (sign, cs) := readSign cs
  let whole := cs.takeWhile isDigit
  if isIntegral whole then
    (readFraction (cs.dropWhile isDigit)).bind fun (fraction, cs) =>
      (readExponent cs).map fun (exponent, cs) =>
        (numberValue exact sign whole (fraction ++ exponent), cs)
  else none

/-- One of the three words. -/
def readWord (cs : List Char) : Option (JsonValue × List Char) :=
  if "null".toList <+: cs then some (.null, cs.drop 4)
  else if "true".toList <+: cs then some (.bool true, cs.drop 4)
  else if "false".toList <+: cs then some (.bool false, cs.drop 5)
  else none

section Combinations

variable {α : Type} (reader : List Char → Option (α × List Char))

/-- White space, what is read, and white space. -/
def readSpaced (cs : List Char) : Option (α × List Char) :=
  (reader (skipSpace cs)).map fun (a, rest) => (a, skipSpace rest)

/-- A name and what it names. -/
def readField (cs : List Char) : Option ((String × α) × List Char) :=
  match skipSpace cs with
  | [] => none
  | c :: cs =>
      if c = quoteMark then
        (readBody cs.length cs).bind fun (key, rest) =>
          match skipSpace rest with
          | [] => none
          | c :: rest =>
              if c = colon then
                (readSpaced reader rest).map fun (a, rest) => ((String.ofList key, a), rest)
              else none
      else none

/-- One or more of what is read, with commas between them, up to the closing mark. -/
def readMany (closing : Char) : Nat → List Char → Option (List α × List Char)
  | 0, _ => none
  | fuel + 1, cs =>
      (reader cs).bind fun (a, rest) =>
        match rest with
        | [] => none
        | c :: rest =>
            if c = comma then
              (readMany closing fuel rest).map fun (as, rest) => (a :: as, rest)
            else if c = closing then some ([a], rest)
            else none

/-- Nothing, or one or more of what is read, up to the closing mark. -/
def readInner (closing : Char) (cs : List Char) : Option (List α × List Char) :=
  match skipSpace cs with
  | [] => none
  | c :: rest =>
      if c = closing then some ([], rest) else readMany reader closing cs.length cs

end Combinations

/-- A value that holds no other. -/
def readScalar (exact : Nat) : List Char → Option (JsonValue × List Char)
  | [] => none
  | c :: cs =>
      if c = quoteMark then
        (readBody cs.length cs).map fun (s, rest) => (.str (String.ofList s), rest)
      else
        match readWord (c :: cs) with
        | some out => some out
        | none => readNumber exact (c :: cs)

/-- A scalar, or an array or object of what is read inside. -/
def readLayer (exact : Nat) (inside : List Char → Option (JsonValue × List Char)) :
    List Char → Option (JsonValue × List Char)
  | [] => none
  | c :: cs =>
      if c = openBracket then
        (readInner (readSpaced inside) closeBracket cs).map fun (items, rest) => (.arr items, rest)
      else if c = openBrace then
        (readInner (readField inside) closeBrace cs).map fun (fields, rest) => (.obj fields, rest)
      else readScalar exact (c :: cs)

/-- A value at the head of the text, nested no deeper than `depth`. -/
def readValue (exact : Nat) : Nat → List Char → Option (JsonValue × List Char)
  | 0 => readScalar exact
  | depth + 1 => readLayer exact (readValue exact depth)

/-- The value that a whole text denotes. -/
def read (exact depth : Nat) (cs : List Char) : Option JsonValue :=
  match readSpaced (readValue exact depth) cs with
  | some (v, []) => some v
  | _ => none

/-! ## What stands behind a value -/

/-- The reader finds what the relation says, in texts that go on as `Stops` says. -/
structure Implements {α : Type} (relation : List Char → α → Prop)
    (reader : List Char → Option (α × List Char)) (Stops : List Char → Prop) : Prop where
  sound : ∀ {cs a rest}, reader cs = some (a, rest) → ∃ used, cs = used ++ rest ∧ relation used a
  complete : ∀ {used a rest}, relation used a → Stops rest → reader (used ++ rest) = some (a, rest)

/-- The text does not go on with a character of this kind. -/
def StopsAt (kind : Char → Bool) (cs : List Char) : Prop := ∀ c, cs.head? = some c → kind c = false

theorem StopsAt.nil {kind : Char → Bool} : StopsAt kind [] := nofun

theorem StopsAt.cons {kind : Char → Bool} {c : Char} (stops : kind c = false) (cs : List Char) :
    StopsAt kind (c :: cs) := by
  intro c' head
  cases head
  exact stops

theorem span_append {kind : Char → Bool} {ds rest : List Char} (all : ∀ c ∈ ds, kind c = true)
    (stops : StopsAt kind rest) :
    (ds ++ rest).takeWhile kind = ds ∧ (ds ++ rest).dropWhile kind = rest := by
  induction ds with
  | nil =>
      cases rest with
      | nil => exact ⟨rfl, rfl⟩
      | cons c cs =>
          have other := stops c rfl
          simp [other]
  | cons c cs ih =>
      obtain ⟨first, others⟩ := List.forall_mem_cons.mp all
      obtain ⟨taken, dropped⟩ := ih others
      simp [first, taken, dropped]

/-- Number characters: a value that ends in one would go on with it. -/
def isNumeric (c : Char) : Bool := isDigit c || c = point || isExponentMark c

/-- Nothing of a number and no white space. -/
def isOpen (c : Char) : Bool := isNumeric c || isSpace c

theorem skipSpace_white {ws rest : List Char} (white : White ws) (stops : StopsAt isSpace rest) :
    skipSpace (ws ++ rest) = rest := (span_append white stops).2

theorem exists_skipSpace (cs : List Char) : ∃ ws, White ws ∧ cs = ws ++ skipSpace cs :=
  ⟨cs.takeWhile isSpace, fun _ inside => List.mem_takeWhile_imp inside,
    List.takeWhile_append_dropWhile.symm⟩

/-! ## Strings -/

theorem scalar_none_of_pair {high low n : Nat} (joined : surrogatePair high low = some n) :
    scalar high = none := by
  unfold surrogatePair at joined
  split at joined
  · rename_i ranges
    refine if_neg fun valid => ?_
    rcases valid with below | ⟨above, -⟩ <;> omega
  · cases joined

theorem readPiece_implements : Implements Piece readPiece fun _ => True where
  sound := by
    intro cs c rest read
    unfold readPiece at read
    split at read
    · cases read
    · rename_i first cs'
      split at read
      · rename_i escaped
        subst escaped
        split at read
        · cases read
        · rename_i e cs''
          split at read
          · rename_i marked
            subst marked
            unfold readUnicode at read
            split at read
            · rename_i a b c' d cs₁
              split at read
              · cases read
              · rename_i n hex
                split at read
                · rename_i char names
                  cases read
                  exact ⟨_, rfl, .unicode hex names⟩
                · split at read
                  · split at read
                    · rename_i marks
                      obtain ⟨rfl, rfl⟩ := marks
                      simp only [Option.bind_eq_some_iff, Option.map_eq_some_iff,
                        Prod.mk.injEq] at read
                      obtain ⟨joined, ⟨low, second, pair⟩, char, names, rfl, rfl⟩ := read
                      exact ⟨_, rfl, .pair hex second pair names⟩
                    · cases read
                  · cases read
            · cases read
          · obtain ⟨c', escape, eq⟩ := Option.map_eq_some_iff.mp read
            cases eq
            exact ⟨_, rfl, .short escape⟩
      · rename_i unescaped
        split at read
        · rename_i plain
          cases read
          exact ⟨_, rfl, .plain plain.1 ⟨plain.2, unescaped⟩⟩
        · cases read
  complete := by
    intro used c rest piece _
    cases piece with
    | plain printable free => simp [readPiece, printable, free]
    | short escape =>
        rename_i e
        have unmarked : e ≠ escapeMark := by
          rintro rfl
          cases escape
        simp [readPiece, unmarked, escape]
    | unicode hex names => simp [readPiece, readUnicode, hex, names]
    | pair first second joined names =>
        simp [readPiece, readUnicode, first, scalar_none_of_pair joined, second, joined, names]

/-- A character of a string is not written with the closing mark first. -/
theorem Piece.head {piece : List Char} {c : Char} (here : Piece piece c) :
    ∃ first tail, piece = first :: tail ∧ first ≠ quoteMark := by
  have apart : backslash ≠ quoteMark := by decide
  cases here with
  | plain printable free => exact ⟨_, _, rfl, free.1⟩
  | short escape => exact ⟨_, _, rfl, apart⟩
  | unicode hex names => exact ⟨_, _, rfl, apart⟩
  | pair first second joined names => exact ⟨_, _, rfl, apart⟩

theorem readBody_sound {fuel : Nat} {cs s rest : List Char}
    (read : readBody fuel cs = some (s, rest)) :
    ∃ used, cs = used ++ quoteMark :: rest ∧ Body used s := by
  induction fuel generalizing cs s with
  | zero => cases read
  | succ fuel ih =>
      cases cs with
      | nil => cases read
      | cons c cs =>
          unfold readBody at read
          split at read
          · rename_i closed
            subst closed
            cases read
            exact ⟨[], rfl, .nil⟩
          · simp only [Option.bind_eq_some_iff, Option.map_eq_some_iff, Prod.mk.injEq] at read
            obtain ⟨⟨c', rest'⟩, first, ⟨s', rest''⟩, more, rfl, rfl⟩ := read
            obtain ⟨piece, split, here⟩ := readPiece_implements.sound first
            obtain ⟨used, eq, body⟩ := ih more
            refine ⟨piece ++ used, ?_, .cons here body⟩
            rw [split, List.append_assoc]
            exact congrArg (piece ++ ·) eq

theorem readBody_complete {used s : List Char} (body : Body used s) {fuel : Nat}
    (enough : used.length < fuel) (rest : List Char) :
    readBody fuel (used ++ quoteMark :: rest) = some (s, rest) := by
  induction body generalizing fuel with
  | nil =>
      cases fuel with
      | zero => cases enough
      | succ fuel => simp [readBody]
  | cons here _ ih =>
      obtain ⟨first, tail, rfl, apart⟩ := here.head
      cases fuel with
      | zero => cases enough
      | succ fuel =>
          simp only [List.length_append, List.length_cons] at enough
          have read : ∀ rest, readPiece (first :: (tail ++ rest)) = some (_, rest) :=
            fun rest => readPiece_implements.complete here trivial
          rw [List.append_assoc, List.cons_append, readBody, if_neg apart, read]
          simp only [Option.bind_some, @ih fuel (by omega), Option.map_some]

/-! ## Numbers -/

theorem not_isDigit_of_mark {c : Char} (marked : isExponentMark c = true) :
    isDigit c = false ∧ c ≠ point := by
  simp only [isExponentMark, Bool.or_eq_true, decide_eq_true_eq] at marked
  refine ⟨?_, ?_⟩
  · simp only [isDigit, Bool.and_eq_false_iff, decide_eq_false_iff_not]
    omega
  · rintro rfl
    revert marked
    decide

theorem digits_of_isIntegral {whole : List Char} (integral : isIntegral whole = true) :
    Digits whole := by
  match whole with
  | [] => cases integral
  | [c] => exact ⟨List.cons_ne_nil _ _, by simpa [isIntegral] using integral⟩
  | c :: d :: cs =>
      simp only [isIntegral, Bool.and_eq_true, List.all_eq_true] at integral
      obtain ⟨⟨first, -⟩, others⟩ := integral
      exact ⟨List.cons_ne_nil _ _, List.forall_mem_cons.mpr ⟨first, others⟩⟩

/-- The digits at the head of a text. -/
theorem exists_span (cs : List Char) :
    cs = cs.takeWhile isDigit ++ cs.dropWhile isDigit ∧
      ∀ c ∈ cs.takeWhile isDigit, isDigit c = true :=
  ⟨List.takeWhile_append_dropWhile.symm, fun _ inside => List.mem_takeWhile_imp inside⟩

theorem readFraction_sound {cs fraction rest : List Char}
    (read : readFraction cs = some (fraction, rest)) :
    cs = fraction ++ rest ∧ IsFraction fraction := by
  unfold readFraction at read
  split at read
  · rename_i c cs'
    split at read
    · rename_i pointed
      subst pointed
      split at read
      · cases read
      · rename_i some_
        cases read
        obtain ⟨split, all⟩ := exists_span cs'
        exact ⟨congrArg (point :: ·) split, .digits ⟨some_, all⟩⟩
    · cases read
      exact ⟨rfl, .absent⟩
  · cases read
    exact ⟨rfl, .absent⟩

theorem readFraction_complete {fraction rest : List Char} (fractional : IsFraction fraction)
    (stops : StopsAt (fun c => isDigit c || c = point) rest) :
    readFraction (fraction ++ rest) = some (fraction, rest) := by
  cases fractional with
  | absent =>
      cases rest with
      | nil => rfl
      | cons c cs =>
          have other := stops c rfl
          simp only [Bool.or_eq_false_iff, decide_eq_false_iff_not] at other
          simp [readFraction, other.2]
  | digits digits =>
      obtain ⟨taken, dropped⟩ := @span_append _ _ rest digits.2 fun c head => by
        have other := stops c head
        simp only [Bool.or_eq_false_iff] at other
        exact other.1
      simp [readFraction, taken, dropped, digits.1]

theorem readExponent_sound {cs exponent rest : List Char}
    (read : readExponent cs = some (exponent, rest)) :
    cs = exponent ++ rest ∧ IsExponent exponent := by
  unfold readExponent at read
  split at read
  · rename_i c cs'
    split at read
    · rename_i marked
      obtain ⟨sign, cs'', signed, split, signs⟩ : ∃ sign cs'', readExponentSign cs' = (sign, cs'') ∧
          cs' = sign ++ cs'' ∧ (sign = [] ∨ sign = [plusSign] ∨ sign = [minusSign]) := by
        unfold readExponentSign
        split
        · split
          · rename_i either
            refine ⟨_, _, rfl, rfl, .inr ?_⟩
            exact either.imp (congrArg ([·])) (congrArg ([·]))
          · exact ⟨_, _, rfl, rfl, .inl rfl⟩
        · exact ⟨_, _, rfl, rfl, .inl rfl⟩
      simp only [signed] at read
      split at read
      · cases read
      · rename_i some_
        cases read
        obtain ⟨split', all⟩ := exists_span cs''
        refine ⟨?_, .digits marked signs ⟨some_, all⟩⟩
        rw [List.cons_append, List.append_assoc, ← split', ← split]
    · cases read
      exact ⟨rfl, .absent⟩
  · cases read
    exact ⟨rfl, .absent⟩

theorem readExponent_complete {exponent rest : List Char} (scaled : IsExponent exponent)
    (stops : StopsAt (fun c => isDigit c || isExponentMark c) rest) :
    readExponent (exponent ++ rest) = some (exponent, rest) := by
  cases scaled with
  | absent =>
      cases rest with
      | nil => rfl
      | cons c cs =>
          have other := stops c rfl
          simp only [Bool.or_eq_false_iff] at other
          simp [readExponent, other.2]
  | digits marked signed digits =>
      rename_i mark sign ds
      obtain ⟨taken, dropped⟩ := @span_append _ _ rest digits.2 fun c head => by
        have other := stops c head
        simp only [Bool.or_eq_false_iff] at other
        exact other.1
      have signs : readExponentSign (sign ++ (ds ++ rest)) = (sign, ds ++ rest) := by
        rcases signed with rfl | rfl | rfl
        · obtain ⟨some_, all⟩ := digits
          cases ds with
          | nil => exact absurd rfl some_
          | cons d ds =>
              have digit := all d (List.mem_cons_self ..)
              refine if_neg ?_
              rintro (rfl | rfl) <;> revert digit <;> decide
        · simp [readExponentSign]
        · simp [readExponentSign]
      simp [readExponent, marked, signs, taken, dropped, digits.1]

theorem readNumber_sound {exact : Nat} {cs rest : List Char} {v : JsonValue}
    (read : readNumber exact cs = some (v, rest)) :
    ∃ used, cs = used ++ rest ∧ Scalar exact used v := by
  obtain ⟨sign, cs', signed, split, signs⟩ : ∃ sign cs', readSign cs = (sign, cs') ∧
      cs = sign ++ cs' ∧ (sign = [] ∨ sign = [minusSign]) := by
    unfold readSign
    split
    · split
      · rename_i minus
        exact ⟨_, _, rfl, congrArg (· :: _) minus, .inr rfl⟩
      · exact ⟨_, _, rfl, rfl, .inl rfl⟩
    · exact ⟨_, _, rfl, rfl, .inl rfl⟩
  simp only [readNumber, signed] at read
  split at read
  · rename_i integral
    simp only [Option.bind_eq_some_iff, Option.map_eq_some_iff, Prod.mk.injEq] at read
    obtain ⟨⟨fraction, cs₁⟩, first, ⟨exponent, cs₂⟩, second, rfl, rfl⟩ := read
    obtain ⟨split₁, fractional⟩ := readFraction_sound first
    obtain ⟨split₂, scaled⟩ := readExponent_sound second
    refine ⟨_, ?_, .number signs integral fractional scaled⟩
    have whole := (exists_span cs').1
    simp only at split₂
    rw [split, List.append_assoc, List.append_assoc, List.append_assoc, ← split₂, ← split₁, ← whole]
  · cases read

/-- A number as it is written starts with its sign or a digit. -/
theorem number_head {sign whole : List Char} (signed : sign = [] ∨ sign = [minusSign])
    (integral : isIntegral whole = true) (rest : List Char) :
    ∃ c tail, sign ++ (whole ++ rest) = c :: tail ∧ (c = minusSign ∨ isDigit c = true) := by
  rcases signed with rfl | rfl
  · obtain ⟨some_, all⟩ := digits_of_isIntegral integral
    cases whole with
    | nil => exact absurd rfl some_
    | cons d ds => exact ⟨d, _, rfl, .inr (all d (List.mem_cons_self ..))⟩
  · exact ⟨_, _, rfl, .inl rfl⟩

theorem readNumber_complete {sign whole fraction exponent rest : List Char} (exact : Nat)
    (signed : sign = [] ∨ sign = [minusSign]) (integral : isIntegral whole = true)
    (fractional : IsFraction fraction) (scaled : IsExponent exponent)
    (stops : StopsAt isNumeric rest) :
    readNumber exact (sign ++ (whole ++ (fraction ++ exponent)) ++ rest) =
      some (numberValue exact sign whole (fraction ++ exponent), rest) := by
  have none_of : ∀ c, rest.head? = some c →
      isDigit c = false ∧ c ≠ point ∧ isExponentMark c = false := by
    intro c head
    have other := stops c head
    simp only [isNumeric, Bool.or_eq_false_iff, decide_eq_false_iff_not] at other
    exact ⟨other.1.1, other.1.2, other.2⟩
  have behind : StopsAt (fun c => isDigit c || c = point) (exponent ++ rest) := by
    intro c head
    simp only [Bool.or_eq_false_iff, decide_eq_false_iff_not]
    cases scaled with
    | absent => exact ⟨(none_of c head).1, (none_of c head).2.1⟩
    | digits marked _ _ =>
        cases head
        exact not_isDigit_of_mark marked
  have fore : StopsAt isDigit (fraction ++ (exponent ++ rest)) := by
    intro c head
    cases fractional with
    | absent =>
        have other := behind c head
        simp only [Bool.or_eq_false_iff] at other
        exact other.1
    | digits digits =>
        cases head
        decide
  have last : StopsAt (fun c => isDigit c || isExponentMark c) rest := fun c head => by
    simp [none_of c head]
  have digits := digits_of_isIntegral integral
  obtain ⟨taken, dropped⟩ := span_append digits.2 fore
  have signs : readSign (sign ++ (whole ++ (fraction ++ (exponent ++ rest)))) =
      (sign, whole ++ (fraction ++ (exponent ++ rest))) := by
    rcases signed with rfl | rfl
    · cases whole with
      | nil => exact absurd rfl digits.1
      | cons d ds =>
          have digit := digits.2 d (List.mem_cons_self ..)
          refine if_neg ?_
          rintro rfl
          revert digit
          decide
    · simp [readSign]
  simp only [List.append_assoc]
  simp [readNumber, signs, taken, dropped, integral, readFraction_complete fractional behind,
    readExponent_complete scaled last]

/-! ## Scalars -/

theorem readWord_sound (exact : Nat) {cs rest : List Char} {v : JsonValue}
    (read : readWord cs = some (v, rest)) : ∃ used, cs = used ++ rest ∧ Scalar exact used v := by
  unfold readWord at read
  split at read
  · rename_i here
    obtain ⟨tail, rfl⟩ := here
    cases read
    exact ⟨_, rfl, .null⟩
  · split at read
    · rename_i here
      obtain ⟨tail, rfl⟩ := here
      cases read
      exact ⟨_, rfl, .true⟩
    · split at read
      · rename_i here
        obtain ⟨tail, rfl⟩ := here
        cases read
        exact ⟨_, rfl, .false⟩
      · cases read

/-- No word starts like a number. -/
theorem readWord_number {c : Char} (cs : List Char) (numeric : c = minusSign ∨ isDigit c = true) :
    readWord (c :: cs) = none := by
  have apart : ∀ (word : String) letter tail, word.toList = letter :: tail →
      ¬ (letter = minusSign ∨ isDigit letter = true) → ¬ word.toList <+: c :: cs := by
    intro word letter tail eq other begins
    rw [eq] at begins
    obtain ⟨rfl, -⟩ := List.cons_prefix_cons.mp begins
    exact other numeric
  unfold readWord
  rw [if_neg (apart "null" _ _ rfl (by decide)), if_neg (apart "true" _ _ rfl (by decide)),
    if_neg (apart "false" _ _ rfl (by decide))]

/-- A character that a value starts with. -/
structure StartsValue (c : Char) : Prop where
  dense : isSpace c = false
  item : c ≠ closeBracket
  field : c ≠ closeBrace

theorem StartsValue.of_number {c : Char} (numeric : c = minusSign ∨ isDigit c = true) :
    StartsValue c := by
  rcases numeric with rfl | digit
  · exact ⟨by decide, by decide, by decide⟩
  · refine ⟨?_, ?_, ?_⟩
    · simp only [isDigit, Bool.and_eq_true, decide_eq_true_eq] at digit
      simp only [isSpace, Bool.or_eq_false_iff, decide_eq_false_iff_not]
      omega
    · rintro rfl
      revert digit
      decide
    · rintro rfl
      revert digit
      decide

theorem Scalar.head {exact : Nat} {cs : List Char} {v : JsonValue} (scalar : Scalar exact cs v) :
    ∃ c tail, cs = c :: tail ∧ StartsValue c ∧ c ≠ openBracket ∧ c ≠ openBrace := by
  cases scalar with
  | null => exact ⟨_, _, rfl, ⟨by decide, by decide, by decide⟩, by decide, by decide⟩
  | true => exact ⟨_, _, rfl, ⟨by decide, by decide, by decide⟩, by decide, by decide⟩
  | false => exact ⟨_, _, rfl, ⟨by decide, by decide, by decide⟩, by decide, by decide⟩
  | number signed integral fractional scaled =>
      obtain ⟨c, tail, eq, numeric⟩ := number_head signed integral _
      refine ⟨c, tail, eq, .of_number numeric, ?_, ?_⟩ <;>
        · rintro rfl
          revert numeric
          decide
  | str body => exact ⟨_, _, rfl, ⟨by decide, by decide, by decide⟩, by decide, by decide⟩

theorem readScalar_implements (exact : Nat) :
    Implements (Scalar exact) (readScalar exact) (StopsAt isNumeric) where
  sound := by
    intro cs v rest read
    unfold readScalar at read
    split at read
    · cases read
    · split at read
      · rename_i quoted
        subst quoted
        obtain ⟨⟨s, rest'⟩, body, eq⟩ := Option.map_eq_some_iff.mp read
        cases eq
        obtain ⟨used, split, here⟩ := readBody_sound body
        refine ⟨_, ?_, .str here⟩
        rw [split]
        simp
      · split at read
        · rename_i out word
          cases read
          exact readWord_sound exact word
        · exact readNumber_sound read
  complete := by
    intro used v rest scalar stops
    cases scalar with
    | null => rfl
    | true => rfl
    | false => rfl
    | number signed integral fractional scaled =>
        have whole := readNumber_complete exact signed integral fractional scaled stops
        obtain ⟨c, tail, eq, numeric⟩ := number_head signed integral _
        rw [eq, List.cons_append] at whole ⊢
        have unquoted : c ≠ quoteMark := by
          rintro rfl
          revert numeric
          decide
        rw [readScalar, if_neg unquoted, readWord_number _ numeric, whole]
    | str body =>
        rename_i cs s
        have enough : cs.length < (cs ++ quoteMark :: rest).length := by
          rw [List.length_append, List.length_cons]
          omega
        have whole : quoteMark :: (cs ++ [quoteMark]) ++ rest =
            quoteMark :: (cs ++ quoteMark :: rest) := by simp
        rw [whole, readScalar, if_pos rfl, readBody_complete body enough rest, Option.map_some]

/-! ## Combinations -/

section Combinations

variable {α : Type} {item : List Char → α → Prop} {reader : List Char → Option (α × List Char)}

theorem StopsAt.white_append {ws rest : List Char} (white : White ws)
    (stops : StopsAt isNumeric rest) : StopsAt isNumeric (ws ++ rest) := by
  intro c head
  cases ws with
  | nil => exact stops c head
  | cons c' ws =>
      cases head
      have space := white _ (List.mem_cons_self ..)
      simp only [isSpace, Bool.or_eq_true, decide_eq_true_eq] at space
      have apart : c ≠ point := by
        rintro rfl
        revert space
        decide
      simp only [isNumeric, isDigit, isExponentMark, Bool.or_eq_false_iff, Bool.and_eq_false_iff,
        decide_eq_false_iff_not]
      refine ⟨⟨?_, apart⟩, ?_⟩ <;> omega

/-- What is read without the white space around it is read with it. -/
theorem readSpaced_implements (inside : Implements item reader (StopsAt isNumeric))
    (dense : ∀ {cs a}, item cs a → ∃ c tail, cs = c :: tail ∧ StartsValue c) :
    Implements (Spaced item) (readSpaced reader) (StopsAt isOpen) where
  sound := by
    intro cs a rest read
    obtain ⟨⟨a', rest'⟩, here, eq⟩ := Option.map_eq_some_iff.mp read
    cases eq
    obtain ⟨used, split, found⟩ := inside.sound here
    obtain ⟨before, left, eq⟩ := exists_skipSpace cs
    obtain ⟨after, right, eq'⟩ := exists_skipSpace rest'
    refine ⟨_, ?_, .mk left found right⟩
    simp only [List.append_assoc]
    rw [← eq', ← split, ← eq]
  complete := by
    intro used a rest spaced stops
    cases spaced with
    | mk left here right =>
        rename_i before cs after
        obtain ⟨c, tail, rfl, starts⟩ := dense here
        have ends : StopsAt isNumeric rest := fun c head => by
          have open_ := stops c head
          simp only [isOpen, Bool.or_eq_false_iff] at open_
          exact open_.1
        have closed : StopsAt isSpace rest := fun c head => by
          have open_ := stops c head
          simp only [isOpen, Bool.or_eq_false_iff] at open_
          exact open_.2
        have skipped : skipSpace (before ++ (c :: tail ++ (after ++ rest))) =
            c :: tail ++ (after ++ rest) := skipSpace_white left (.cons starts.dense _)
        rw [List.append_assoc, List.append_assoc, readSpaced, skipped,
          inside.complete here (ends.white_append right), Option.map_some]
        exact congrArg (fun rest => some (a, rest)) (skipSpace_white right closed)

/-- A spaced text does not start with a closing mark. -/
theorem Spaced.head {cs : List Char} {a : α}
    (dense : ∀ {cs a}, item cs a → ∃ c tail, cs = c :: tail ∧ StartsValue c)
    (spaced : Spaced item cs a) (rest : List Char) :
    ∃ c tail, skipSpace (cs ++ rest) = c :: tail ∧ StartsValue c := by
  cases spaced with
  | mk left here right =>
      obtain ⟨c, tail, rfl, starts⟩ := dense here
      rw [List.append_assoc, List.append_assoc, List.cons_append]
      exact ⟨c, _, skipSpace_white left (.cons starts.dense _), starts⟩

theorem Field.head {cs : List Char} {field : String × α} (here : Field item cs field)
    (rest : List Char) : ∃ tail, skipSpace (cs ++ rest) = quoteMark :: tail := by
  cases here with
  | mk left named between inner =>
      rw [List.append_assoc, List.cons_append]
      exact ⟨_, skipSpace_white left (.cons (by decide) _)⟩

/-- What is read is read behind its name. -/
theorem readField_implements
    (inside : Implements (Spaced item) (readSpaced reader) (StopsAt isOpen)) :
    Implements (Field item) (readField reader) (StopsAt isOpen) where
  sound := by
    intro cs field rest read
    obtain ⟨before, left, eq⟩ := exists_skipSpace cs
    unfold readField at read
    split at read
    · cases read
    · rename_i c cs' skipped
      split at read
      · rename_i quoted
        subst quoted
        obtain ⟨⟨key, rest₁⟩, body, read⟩ := Option.bind_eq_some_iff.mp read
        obtain ⟨name, split, named⟩ := readBody_sound body
        obtain ⟨middle, between, eq'⟩ := exists_skipSpace rest₁
        simp only at read
        split at read
        · cases read
        · rename_i c rest₂ skipped'
          split at read
          · rename_i colons
            subst colons
            obtain ⟨⟨a, rest₃⟩, spaced, same⟩ := Option.map_eq_some_iff.mp read
            cases same
            obtain ⟨used, split', here⟩ := inside.sound spaced
            refine ⟨_, ?_, .mk left named between here⟩
            rw [eq, skipped, split, eq', skipped', split']
            simp
          · cases read
      · cases read
  complete := by
    intro used field rest here stops
    cases here with
    | mk left named between spaced =>
        rename_i before name key middle cs a
        have enough : name.length <
            (name ++ quoteMark :: (middle ++ colon :: (cs ++ rest))).length := by
          rw [List.length_append, List.length_cons]
          omega
        have whole : before ++ quoteMark :: (name ++ quoteMark :: (middle ++ colon :: cs)) ++ rest =
            before ++ quoteMark :: (name ++ quoteMark :: (middle ++ colon :: (cs ++ rest))) := by
          simp
        have first := @skipSpace_white before
          (quoteMark :: (name ++ quoteMark :: (middle ++ colon :: (cs ++ rest)))) left
          (.cons (by decide) _)
        have second := @skipSpace_white middle (colon :: (cs ++ rest)) between
          (.cons (by decide) _)
        simp only [whole, readField, first, ↓reduceIte, readBody_complete named enough,
          Option.bind_some, second, inside.complete spaced stops, Option.map_some]

/-- One after another, up to a mark that ends none of them. -/
theorem readMany_sound (inside : Implements item reader (StopsAt isOpen)) {closing : Char}
    {fuel : Nat} {cs rest : List Char} {as : List α}
    (read : readMany reader closing fuel cs = some (as, rest)) :
    ∃ used, cs = used ++ closing :: rest ∧ Many item used as := by
  induction fuel generalizing cs as with
  | zero => cases read
  | succ fuel ih =>
      obtain ⟨⟨a, rest₁⟩, first, next⟩ := Option.bind_eq_some_iff.mp read
      obtain ⟨used, split, here⟩ := inside.sound first
      clear read
      simp only at next
      split at next
      · cases next
      · rename_i c rest₂
        split at next
        · rename_i separated
          subst separated
          obtain ⟨⟨as', rest₃⟩, more, eq⟩ := Option.map_eq_some_iff.mp next
          cases eq
          obtain ⟨used', split', many⟩ := ih more
          refine ⟨_, ?_, .cons here many⟩
          rw [split, split']
          simp
        · split at next
          · rename_i closes
            subst closes
            cases next
            exact ⟨used, split, .last here⟩
          · cases next

theorem readMany_complete (inside : Implements item reader (StopsAt isOpen)) {closing : Char}
    (closes : isOpen closing = false) (apart : closing ≠ comma) {used : List Char} {as : List α}
    (many : Many item used as) {fuel : Nat} (enough : used.length < fuel) (rest : List Char) :
    readMany reader closing fuel (used ++ closing :: rest) = some (as, rest) := by
  induction many generalizing fuel with
  | last here =>
      cases fuel with
      | zero => cases enough
      | succ fuel =>
          simp only [readMany, inside.complete here (.cons closes _), Option.bind_some,
            if_neg apart, ↓reduceIte]
  | cons here more ih =>
      rename_i cs rest' a as
      cases fuel with
      | zero => cases enough
      | succ fuel =>
          simp only [List.length_append, List.length_cons] at enough
          have first := @inside.complete _ _ (comma :: (rest' ++ closing :: rest)) here
            (.cons (by decide) _)
          rw [List.append_assoc, List.cons_append]
          simp only [readMany, first, Option.bind_some, ↓reduceIte, @ih fuel (by omega),
            Option.map_some]

theorem readInner_implements (inside : Implements item reader (StopsAt isOpen)) {closing : Char}
    (closes : isOpen closing = false) (apart : closing ≠ comma)
    (starts : ∀ {cs a} rest, item cs a →
      ∃ c tail, skipSpace (cs ++ rest) = c :: tail ∧ c ≠ closing) :
    Implements (Inner item closing) (readInner reader closing) fun _ => True where
  sound := by
    intro cs as rest read
    obtain ⟨ws, white, eq⟩ := exists_skipSpace cs
    unfold readInner at read
    split at read
    · cases read
    · rename_i c rest₁ skipped
      split at read
      · rename_i closed
        subst closed
        cases read
        refine ⟨_, ?_, .empty white⟩
        rw [eq, skipped]
        simp
      · obtain ⟨used, split, many⟩ := readMany_sound inside read
        refine ⟨_, ?_, .many many⟩
        rw [split]
        simp
  complete := by
    intro used as rest inner _
    have dense : isSpace closing = false := by
      simp only [isOpen, Bool.or_eq_false_iff] at closes
      exact closes.2
    cases inner with
    | empty white =>
        have skipped := @skipSpace_white _ (closing :: rest) white (.cons dense _)
        rw [List.append_assoc, List.singleton_append, readInner, skipped]
        exact if_pos rfl
    | many many =>
        rename_i cs
        have enough : cs.length < (cs ++ closing :: rest).length := by
          rw [List.length_append, List.length_cons]
          omega
        obtain ⟨c, tail, skipped, other⟩ : ∃ c tail, skipSpace (cs ++ closing :: rest) = c :: tail ∧
            c ≠ closing := by
          cases many with
          | last here => exact starts _ here
          | cons here more =>
              rw [List.append_assoc]
              exact starts _ here
        have whole := readMany_complete inside closes apart many enough rest
        rw [List.append_assoc, List.singleton_append, readInner, skipped]
        simp only [if_neg other, whole]

end Combinations

/-! ## Values -/

section Values

variable {exact : Nat} {inside : List Char → JsonValue → Prop}
  {reader : List Char → Option (JsonValue × List Char)}

theorem Layer.head {cs : List Char} {v : JsonValue} (layer : Layer exact inside cs v) :
    ∃ c tail, cs = c :: tail ∧ StartsValue c := by
  cases layer with
  | scalar scalar =>
      obtain ⟨c, tail, eq, starts, -⟩ := scalar.head
      exact ⟨c, tail, eq, starts⟩
  | arr inner => exact ⟨_, _, rfl, by decide, by decide, by decide⟩
  | obj inner => exact ⟨_, _, rfl, by decide, by decide, by decide⟩

theorem readLayer_implements (implements : Implements inside reader (StopsAt isNumeric))
    (dense : ∀ {cs v}, inside cs v → ∃ c tail, cs = c :: tail ∧ StartsValue c) :
    Implements (Layer exact inside) (readLayer exact reader) (StopsAt isNumeric) := by
  have spaced := readSpaced_implements implements dense
  have items : Implements (Inner (Spaced inside) closeBracket)
      (readInner (readSpaced reader) closeBracket) fun _ => True := by
    refine readInner_implements spaced (by decide) (by decide) fun rest here => ?_
    obtain ⟨c, tail, skipped, starts⟩ := here.head dense rest
    exact ⟨c, tail, skipped, starts.item⟩
  have fields : Implements (Inner (Field inside) closeBrace)
      (readInner (readField reader) closeBrace) fun _ => True := by
    refine readInner_implements (readField_implements spaced) (by decide) (by decide)
      fun rest here => ?_
    obtain ⟨tail, skipped⟩ := here.head rest
    exact ⟨quoteMark, tail, skipped, by decide⟩
  have apart : openBrace ≠ openBracket := by decide
  constructor
  · intro cs v rest read
    unfold readLayer at read
    split at read
    · cases read
    · split at read
      · rename_i opened
        subst opened
        obtain ⟨⟨vs, rest'⟩, inner, eq⟩ := Option.map_eq_some_iff.mp read
        cases eq
        obtain ⟨used, split, here⟩ := items.sound inner
        exact ⟨_, congrArg (openBracket :: ·) split, .arr here⟩
      · split at read
        · rename_i opened
          subst opened
          obtain ⟨⟨vs, rest'⟩, inner, eq⟩ := Option.map_eq_some_iff.mp read
          cases eq
          obtain ⟨used, split, here⟩ := fields.sound inner
          exact ⟨_, congrArg (openBrace :: ·) split, .obj here⟩
        · obtain ⟨used, split, here⟩ := (readScalar_implements exact).sound read
          exact ⟨used, split, .scalar here⟩
  · intro used v rest layer stops
    cases layer with
    | scalar scalar =>
        have whole := (readScalar_implements exact).complete scalar stops
        obtain ⟨c, tail, rfl, -, item, field⟩ := scalar.head
        rw [List.cons_append, readLayer, if_neg item, if_neg field]
        exact whole
    | arr inner =>
        rw [List.cons_append, readLayer, if_pos rfl, items.complete inner trivial, Option.map_some]
    | obj inner =>
        rw [List.cons_append, readLayer, if_neg apart, if_pos rfl, fields.complete inner trivial,
          Option.map_some]

end Values

theorem Denotes.head {exact depth : Nat} {cs : List Char} {v : JsonValue}
    (denotes : Denotes exact depth cs v) : ∃ c tail, cs = c :: tail ∧ StartsValue c := by
  cases depth with
  | zero =>
      obtain ⟨c, tail, eq, starts, -⟩ := Scalar.head denotes
      exact ⟨c, tail, eq, starts⟩
  | succ depth => exact Layer.head denotes

/-- The reader finds the values of the grammar. -/
theorem readValue_implements (exact depth : Nat) :
    Implements (Denotes exact depth) (readValue exact depth) (StopsAt isNumeric) := by
  induction depth with
  | zero => exact readScalar_implements exact
  | succ depth ih => exact readLayer_implements ih Denotes.head

/-- A text is read as a value exactly if it denotes it, white space around it apart. -/
theorem read_eq_some {exact depth : Nat} {cs : List Char} {v : JsonValue} :
    read exact depth cs = some v ↔ Spaced (Denotes exact depth) cs v := by
  have implements := readSpaced_implements (readValue_implements exact depth) Denotes.head
  unfold read
  constructor
  · intro found
    split at found
    · rename_i v' done
      cases found
      obtain ⟨used, split, here⟩ := implements.sound done
      rw [List.append_nil] at split
      exact split ▸ here
    · cases found
  · intro spaced
    have whole := implements.complete spaced .nil
    rw [List.append_nil] at whole
    rw [whole]

/-! ## The text of a value -/

/-- A character as it is escaped. -/
theorem escapeChar_piece (c : Char) : Piece (Json.escapeChar c).toList c := by
  have named : ∀ n, c.toNat = n → c = Char.ofNat n := by
    rintro n rfl
    exact (Char.ofNat_toNat c).symm
  have control : ∀ n : Fin 0x20, hexFour (Char.ofNat 0x30) (Char.ofNat 0x30)
      (Nat.digitChar (n / 16)) (Nat.digitChar (n % 16)) = some n.val ∧
        scalar n = some (Char.ofNat n) := by decide
  unfold Json.escapeChar
  split
  all_goals try
    rename_i code
    rw [named _ code]
    exact .short rfl
  rename_i other1 other2 _ _ _ _ _
  split
  · rename_i small
    obtain ⟨hex, names⟩ := control ⟨c.toNat, small⟩
    have text : ("\\u00" ++ String.ofList [Nat.digitChar (c.toNat / 16),
        Nat.digitChar (c.toNat % 16)]).toList = [backslash, escapeMark, Char.ofNat 0x30,
          Char.ofNat 0x30, Nat.digitChar (c.toNat / 16), Nat.digitChar (c.toNat % 16)] := by
      rw [String.toList_append, String.toList_ofList, String.toList_ofList]
      rfl
    rw [text]
    refine .unicode hex ?_
    rw [names, Char.ofNat_toNat]
  · rename_i large
    rw [String.toList_singleton]
    refine .plain (Nat.le_of_not_lt large) ⟨?_, ?_⟩
    · rintro rfl
      exact other1 rfl
    · rintro rfl
      exact other2 rfl

theorem escape_body (cs : List Char) : Body (Json.escape cs).toList cs := by
  induction cs with
  | nil => exact .nil
  | cons c cs ih =>
      rw [Json.escape, String.toList_append]
      exact .cons (escapeChar_piece c) ih

theorem quote_toList (s : String) : (Json.quote s).toList =
    quoteMark :: ((Json.escape s.toList).toList ++ [quoteMark]) := by
  rw [Json.quote, String.toList_append, String.toList_append]
  rfl

/-- A number's decimal digits have no leading zero. -/
theorem toDigits_head {n : Nat} (positive : 0 < n) :
    ∃ c tail, Nat.toDigits 10 n = c :: tail ∧ c.toNat ≠ 0x30 := by
  induction n using Nat.strongRecOn with
  | ind n ih =>
      rw [Nat.toDigits_eq_if (by decide)]
      split
      · rename_i small
        have digit : ∀ k : Fin 10, 0 < k.val → (Nat.digitChar k).toNat ≠ 0x30 := by decide
        exact ⟨_, _, rfl, digit ⟨n, small⟩ positive⟩
      · obtain ⟨c, tail, eq, other⟩ := ih (n / 10) (by omega) (by omega)
        rw [eq]
        exact ⟨c, _, rfl, other⟩

theorem toDigits_digit (n : Nat) : ∀ c ∈ Nat.toDigits 10 n, isDigit c = true := by
  intro c inside
  have digit := Nat.isDigit_of_mem_toDigits (by decide) (by decide) inside
  simp only [Char.isDigit, Bool.and_eq_true, decide_eq_true_eq] at digit
  simp only [isDigit, Bool.and_eq_true, decide_eq_true_eq]
  exact ⟨UInt32.le_iff_toNat_le.mp digit.1, UInt32.le_iff_toNat_le.mp digit.2⟩

theorem isIntegral_toDigits (n : Nat) : isIntegral (Nat.toDigits 10 n) = true := by
  rcases Nat.eq_zero_or_pos n with rfl | positive
  · decide
  · obtain ⟨c, tail, eq, other⟩ := toDigits_head positive
    have digits := toDigits_digit n
    rw [eq] at digits ⊢
    obtain ⟨first, others⟩ := List.forall_mem_cons.mp digits
    cases tail with
    | nil => exact first
    | cons d tail => simpa [isIntegral, first, other] using others

theorem natural_denotes {exact n : Nat} (small : n < exact) :
    Scalar exact (toString n).toList (.natural n) := by
  have value : digitsValue (Nat.toDigits 10 n) = n := Nat.ofDigitChars_ten_toDigits
  have scalar := @Scalar.number exact [] (Nat.toDigits 10 n) [] [] (.inl rfl)
    (isIntegral_toDigits n) .absent .absent
  rw [List.append_nil, List.append_nil, List.nil_append] at scalar
  have denoted : numberValue exact [] (Nat.toDigits 10 n) [] = .natural n := by
    rw [numberValue, value, if_pos ⟨rfl, rfl, small⟩]
  rw [Nat.toString_eq_ofList_toDigits, String.toList_ofList]
  exact denoted ▸ scalar

theorem quote_denotes {exact : Nat} (s : String) :
    Scalar exact (Json.quote s).toList (.str s) := by
  have body := @Scalar.str exact _ _ (escape_body s.toList)
  rwa [String.ofList_toList, ← quote_toList] at body

theorem Spaced.bare {α : Type} {item : List Char → α → Prop} {cs : List Char} {a : α}
    (here : item cs a) : Spaced item cs a := by
  have spaced := @Spaced.mk _ item [] cs [] a nofun here nofun
  rwa [List.append_nil, List.nil_append] at spaced

theorem renderItems_many {exact depth : Nat} {items : List Json}
    (inside : ∀ item ∈ items, Denotes exact depth item.render.toList item.value)
    (some_ : items ≠ []) :
    Many (Spaced (Denotes exact depth)) (Json.renderItems items).toList (Json.values items) := by
  induction items with
  | nil => exact absurd rfl some_
  | cons item items ih =>
      obtain ⟨first, others⟩ := List.forall_mem_cons.mp inside
      cases items with
      | nil => exact .last (.bare first)
      | cons next items =>
          have text : (Json.renderItems (item :: next :: items)).toList =
              item.render.toList ++ comma :: (Json.renderItems (next :: items)).toList := by
            rw [Json.renderItems, String.toList_append, String.toList_append, List.append_assoc]
            · rfl
            · exact List.cons_ne_nil _ _
          rw [text]
          exact .cons (.bare first) (ih others (List.cons_ne_nil _ _))

theorem renderFields_many {exact depth : Nat} {fields : List (String × Json)}
    (inside : ∀ field ∈ fields, Denotes exact depth field.2.render.toList field.2.value)
    (some_ : fields ≠ []) :
    Many (Field (Denotes exact depth)) (Json.renderFields fields).toList
      (Json.fieldValues fields) := by
  have single : ∀ (key : String) (item : Json), Denotes exact depth item.render.toList item.value →
      Field (Denotes exact depth) (Json.quote key ++ ":" ++ item.render).toList
        (key, item.value) := by
    intro key item here
    have field := @Field.mk _ (Denotes exact depth) [] _ _ [] _ _ nofun (escape_body key.toList)
      nofun (.bare here)
    rw [String.ofList_toList] at field
    have text : (Json.quote key ++ ":" ++ item.render).toList =
        quoteMark ::
          ((Json.escape key.toList).toList ++ quoteMark :: colon :: item.render.toList) := by
      rw [String.toList_append, String.toList_append, quote_toList, List.cons_append,
        List.cons_append, List.append_assoc, List.append_assoc]
      rfl
    rw [text]
    exact field
  induction fields with
  | nil => exact absurd rfl some_
  | cons field fields ih =>
      obtain ⟨key, item⟩ := field
      obtain ⟨first, others⟩ := List.forall_mem_cons.mp inside
      cases fields with
      | nil => exact .last (single key item first)
      | cons next fields =>
          have text : (Json.renderFields ((key, item) :: next :: fields)).toList =
              (Json.quote key ++ ":" ++ item.render).toList ++
                comma :: (Json.renderFields (next :: fields)).toList := by
            rw [Json.renderFields, String.toList_append, String.toList_append, List.append_assoc]
            · rfl
            · exact List.cons_ne_nil _ _
          rw [text]
          exact .cons (single key item first) (ih others (List.cons_ne_nil _ _))

/-- The compact text of a value denotes it. -/
theorem render_denotes {exact depth : Nat} {j : Json} (fits : j.Fits exact depth) :
    Denotes exact depth j.render.toList j.value := by
  have scalar : ∀ {depth cs v}, Scalar exact cs v → Denotes exact depth cs v := by
    intro depth cs v scalar
    cases depth with
    | zero => exact scalar
    | succ depth => exact .scalar scalar
  induction depth generalizing j with
  | zero =>
      cases j with
      | null => exact scalar .null
      | bool b => cases b <;> exact scalar (by constructor)
      | num n => exact scalar (natural_denotes (fits.small n (List.mem_singleton_self n)))
      | str s => exact scalar (quote_denotes s)
      | arr items => exact absurd fits.depth_le (Nat.not_succ_le_zero _)
      | obj fields => exact absurd fits.depth_le (Nat.not_succ_le_zero _)
  | succ depth ih =>
      cases j with
      | null => exact scalar .null
      | bool b => cases b <;> exact scalar (by constructor)
      | num n => exact scalar (natural_denotes (fits.small n (List.mem_singleton_self n)))
      | str s => exact scalar (quote_denotes s)
      | arr items =>
          have text : (Json.arr items).render.toList =
              openBracket :: ((Json.renderItems items).toList ++ [closeBracket]) := by
            rw [Json.render, String.toList_append, String.toList_append]
            rfl
          rw [text]
          refine Layer.arr ?_
          cases items with
          | nil => exact .empty (List.forall_mem_nil _)
          | cons item items =>
              exact .many (renderItems_many (fun _ inside => ih (fits.item inside))
                (List.cons_ne_nil _ _))
      | obj fields =>
          have text : (Json.obj fields).render.toList =
              openBrace :: ((Json.renderFields fields).toList ++ [closeBrace]) := by
            rw [Json.render, String.toList_append, String.toList_append]
            rfl
          rw [text]
          refine Layer.obj ?_
          cases fields with
          | nil => exact .empty (List.forall_mem_nil _)
          | cons field fields =>
              exact .many (renderFields_many (fun _ inside => ih (fits.field inside))
                (List.cons_ne_nil _ _))

/-- What is rendered is read, with white space around it or not. -/
theorem read_render {exact depth : Nat} {j : Json} (fits : j.Fits exact depth)
    {before after : List Char} (left : White before) (right : White after) :
    read exact depth (before ++ (j.render.toList ++ after)) = some j.value :=
  read_eq_some.mpr (.mk left (render_denotes fits) right)

end JsonText

end Foundation

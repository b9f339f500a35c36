import HttpServerDemo.Library.Decimal

/-!
# SQL text

How MySQL splits a statement into tokens under its default SQL mode, as an automaton that reads one
octet after the other, and the escaping of a text for a string literal. `run_escape` says that the
automaton, inside a literal, reads an escaped text as the text and is inside the literal still.
-/

namespace Sql

/-- A token. A string literal is given by the text that it denotes. -/
inductive Token where
  | word (name : Octets)
  | number (n : Nat)
  | string (value : Octets)
  | quotedName (name : Octets)
  | symbol (b : UInt8)
  deriving DecidableEq

/-- The octets that separate tokens. -/
def isSpace (b : UInt8) : Bool :=
  b == 0x20 || (decide (0x09 ≤ b) && decide (b ≤ 0x0D))

/-- The octets of words: letters, digits, `_`, `$` and everything above ASCII. -/
def isWord (b : UInt8) : Bool :=
  (decide (0x41 ≤ b) && decide (b ≤ 0x5A)) || (decide (0x61 ≤ b) && decide (b ≤ 0x7A)) ||
    Decimal.isDigit b || b == 0x5F || b == 0x24 || decide (0x80 ≤ b)

/-- The octets that a backslash and this octet stand for in a string literal. -/
def unescape (b : UInt8) : Octets :=
  if b = 0x30 then [0x00]
  else if b = 0x62 then [0x08]
  else if b = 0x6E then [0x0A]
  else if b = 0x72 then [0x0D]
  else if b = 0x74 then [0x09]
  else if b = 0x5A then [0x1A]
  else if b = 0x25 ∨ b = 0x5F then [0x5C, b]
  else [b]

/-- Where the automaton stands, with what it has read of the current token. -/
inductive Lexing where
  | between
  | word (read : Octets)
  | number (digits : Octets)
  /-- Inside of quotes. -/
  | literal (quote : UInt8) (read : Octets)
  /-- Inside of quotes, after a backslash. -/
  | escaped (quote : UInt8) (read : Octets)
  /-- After the closing quote, unless another one follows. -/
  | closed (quote : UInt8) (read : Octets)
  | minus
  | minusMinus
  | slash
  | lineComment
  | blockComment
  /-- In a block comment, after an asterisk. -/
  | blockCommentStar
  deriving DecidableEq

/-- The token of a quoted text: a name in backquotes, and a string literal otherwise. -/
def quotedToken (quote : UInt8) (read : Octets) : Token :=
  if quote = 0x60 then .quotedName read else .string read

/-- Put these tokens in front. -/
def after (tokens : List Token) (p : List Token × Lexing) : List Token × Lexing :=
  (tokens ++ p.1, p.2)

/-- Read an octet between two tokens. -/
def start (b : UInt8) : List Token × Lexing :=
  if isSpace b then ([], .between)
  else if Decimal.isDigit b then ([], .number [b])
  else if isWord b then ([], .word [b])
  else if b = 0x27 ∨ b = 0x22 ∨ b = 0x60 then ([], .literal b [])
  else if b = 0x23 then ([], .lineComment)
  else if b = 0x2D then ([], .minus)
  else if b = 0x2F then ([], .slash)
  else ([.symbol b], .between)

/-- Read an octet: the tokens that end with it, and where the automaton stands then. -/
def step : Lexing → UInt8 → List Token × Lexing
  | .between, b => start b
  | .word read, b => if isWord b then ([], .word (read ++ [b])) else after [.word read] (start b)
  | .number digits, b =>
      if Decimal.isDigit b then ([], .number (digits ++ [b]))
      else if isWord b then ([], .word (digits ++ [b]))
      else after [.number (Decimal.read 0 digits)] (start b)
  | .literal quote read, b =>
      if b = quote then ([], .closed quote read)
      else if b = 0x5C ∧ quote ≠ 0x60 then ([], .escaped quote read)
      else ([], .literal quote (read ++ [b]))
  | .escaped quote read, b => ([], .literal quote (read ++ unescape b))
  | .closed quote read, b =>
      -- a doubled quote is a quote of the text
      if b = quote then ([], .literal quote (read ++ [b]))
      else after [quotedToken quote read] (start b)
  | .minus, b => if b = 0x2D then ([], .minusMinus) else after [.symbol 0x2D] (start b)
  | .minusMinus, b =>
      -- two minus signs start a comment in front of white space only
      if b = 0x0A then ([], .between)
      else if b ≤ 0x20 ∨ b = 0x7F then ([], .lineComment)
      else if b = 0x2D then ([.symbol 0x2D], .minusMinus)
      else after [.symbol 0x2D, .symbol 0x2D] (start b)
  | .slash, b => if b = 0x2A then ([], .blockComment) else after [.symbol 0x2F] (start b)
  | .lineComment, b => ([], if b = 0x0A then .between else .lineComment)
  | .blockComment, b => ([], if b = 0x2A then .blockCommentStar else .blockComment)
  | .blockCommentStar, b =>
      ([], if b = 0x2F then .between else if b = 0x2A then .blockCommentStar else .blockComment)

/-- Read a text. -/
def run : Lexing → Octets → List Token × Lexing
  | state, [] => ([], state)
  | state, b :: s => after (step state b).1 (run (step state b).2 s)

/-- The tokens that end with the text, unless it ends inside of quotes or of a block comment. -/
def finish : Lexing → Option (List Token)
  | .between | .lineComment => some []
  | .word read => some [.word read]
  | .number digits => some [.number (Decimal.read 0 digits)]
  | .closed quote read => some [quotedToken quote read]
  | .minus => some [.symbol 0x2D]
  | .minusMinus => some [.symbol 0x2D, .symbol 0x2D]
  | .slash => some [.symbol 0x2F]
  | .literal _ _ | .escaped _ _ | .blockComment | .blockCommentStar => none

/-- The tokens of a text. -/
def lex (s : Octets) : Option (List Token) :=
  (finish (run .between s).2).map ((run .between s).1 ++ ·)

/-- The sign of a negative integer. -/
def signTokens (i : Int) : List Token :=
  if i < 0 then [.symbol 0x2D] else []

/-- The tokens of a decimal numeral. -/
def integerTokens (i : Int) : List Token :=
  signTokens i ++ [.number i.natAbs]

/-- The octets that an octet is escaped as. -/
def escapeOctet (b : UInt8) : Octets :=
  if b = 0x00 then [0x5C, 0x30]
  else if b = 0x0A then [0x5C, 0x6E]
  else if b = 0x0D then [0x5C, 0x72]
  else if b = 0x1A then [0x5C, 0x5A]
  else if b = 0x22 ∨ b = 0x27 ∨ b = 0x5C then [0x5C, b]
  else [b]

/-- Escape a text for a string literal. -/
def escape (s : Octets) : Octets :=
  s.flatMap escapeOctet

/-! ## Reading piece by piece -/

@[simp] theorem after_nil (p : List Token × Lexing) : after [] p = p :=
  rfl

theorem after_after (first second : List Token) (p : List Token × Lexing) :
    after first (after second p) = after (first ++ second) p := by
  simp [after]

/-- A text is read in two pieces. -/
theorem run_append (state : Lexing) (a b : Octets) :
    run state (a ++ b) = after (run state a).1 (run (run state a).2 b) := by
  induction a generalizing state with
  | nil => rfl
  | cons c a ih =>
      simp only [List.cons_append, run, ih, after_after]
      rfl

/-- A text is read in two pieces whose reading is known. -/
theorem run_append_eq {state middle last : Lexing} {a b : Octets} {first second : List Token}
    (ha : run state a = (first, middle)) (hb : run middle b = (second, last)) :
    run state (a ++ b) = (first ++ second, last) := by
  rw [run_append, ha, hb]
  rfl

/-- Reading the octets of a number goes on with the number. -/
theorem run_digits {s : Octets} (h : ∀ b ∈ s, Decimal.isDigit b = true) (digits : Octets) :
    run (.number digits) s = ([], .number (digits ++ s)) := by
  induction s generalizing digits with
  | nil => simp [run]
  | cons b s ih =>
      have hb : Decimal.isDigit b = true := h b (by simp)
      simp only [run, step, hb, if_true, after_nil]
      rw [ih fun c hc => h c (by simp [hc])]
      simp

/-- The numeral of a natural number is read as a number, also after a minus sign. -/
theorem run_ofNat {state : Lexing} {sign : List Token}
    (hstate : state = .between ∧ sign = [] ∨ state = .minus ∧ sign = [.symbol 0x2D]) (n : Nat) :
    run state (Decimal.ofNat n) = (sign, .number (Decimal.ofNat n)) := by
  obtain ⟨b, rest, hn, hb⟩ := Decimal.ofNat_eq_cons n
  have hspace : isSpace b = false := Decimal.isDigit_not_isSpace hb
  have hminus : b ≠ 0x2D := Decimal.isDigit_ne hb rfl
  have hrest : ∀ c ∈ rest, Decimal.isDigit c = true :=
    fun c hc => Decimal.isDigit_of_mem_ofNat (hn ▸ List.mem_cons_of_mem b hc)
  have hstart : start b = ([], .number [b]) := by simp [start, hspace, hb]
  have hdigits := run_digits hrest [b]
  rw [hn]
  rcases hstate with ⟨rfl, rfl⟩ | ⟨rfl, rfl⟩
  · simp only [run, step, hstart, hdigits, after_nil]
    rfl
  · simp only [run, step, if_neg hminus, hstart, after, hdigits]
    rfl

/-- The numeral of an integer is read as its tokens. -/
theorem run_ofInt (i : Int) :
    run .between (Decimal.ofInt i) = (signTokens i, .number (Decimal.ofNat i.natAbs)) := by
  cases i with
  | ofNat n => exact run_ofNat (.inl ⟨rfl, rfl⟩) n
  | negSucc n =>
      have hminus : run .between [0x2D] = ([], .minus) := rfl
      have hsign : signTokens (.negSucc n) = [.symbol 0x2D] := if_pos (Int.negSucc_lt_zero n)
      rw [hsign]
      exact run_append_eq hminus (run_ofNat (.inr ⟨rfl, rfl⟩) (n + 1))

/-- A number ends in front of an octet that continues no word. -/
theorem run_number_end (n : Nat) {b : UInt8} (hb : isWord b = false) (s : Octets) :
    run (.number (Decimal.ofNat n)) (b :: s) = after [.number n] (run .between (b :: s)) := by
  have hdigit : Decimal.isDigit b = false := by
    cases h : Decimal.isDigit b with
    | false => rfl
    | true => simp [isWord, h] at hb
  simp [run, step, hdigit, hb, after]

/-- The tokens of a numeral determine the integer, whatever follows them. -/
theorem integerTokens_append_inj {i j : Int} {a b : List Token}
    (h : integerTokens i ++ a = integerTokens j ++ b) : i = j ∧ a = b := by
  unfold integerTokens signTokens at h
  split_ifs at h with hi hj hj
  · injection h with _ h
    injection h with hnumber hrest
    injection hnumber with habs
    exact ⟨by omega, hrest⟩
  -- a number is no sign
  · injection h with hsign
    cases hsign
  · injection h with hsign
    cases hsign
  · injection h with hnumber hrest
    injection hnumber with habs
    exact ⟨by omega, hrest⟩

/-- A text is split where the automaton can end. -/
theorem lex_of_run {s : Octets} {tokens rest : List Token} {state : Lexing}
    (hrun : run .between s = (tokens, state)) (hfinish : finish state = some rest) :
    lex s = some (tokens ++ rest) := by
  rw [lex, hrun, hfinish]
  rfl

/-! ## Escaped texts -/

/-- Inside a string literal, the escape of an octet is read as the octet. -/
theorem run_escapeOctet {quote : UInt8} (hquote : quote = 0x27 ∨ quote = 0x22) (read : Octets)
    (b : UInt8) :
    run (.literal quote read) (escapeOctet b) = ([], .literal quote (read ++ [b])) := by
  have hname : quote ≠ 0x60 := by rcases hquote with rfl | rfl <;> decide
  have hslash : (0x5C : UInt8) ≠ quote := by rcases hquote with rfl | rfl <;> decide
  -- the escape of an octet is a backslash and the octet that stands for it
  have hescape : ∀ e, unescape e = [b] →
      run (.literal quote read) [0x5C, e] = ([], .literal quote (read ++ [b])) := by
    intro e he
    simp [run, step, hname, hslash, he]
  unfold escapeOctet
  split_ifs with h0 h1 h2 h3 h4
  · exact hescape _ (h0 ▸ rfl)
  · exact hescape _ (h1 ▸ rfl)
  · exact hescape _ (h2 ▸ rfl)
  · exact hescape _ (h3 ▸ rfl)
  · refine hescape b ?_
    rcases h4 with rfl | rfl | rfl <;> rfl
  · simp only [not_or] at h4
    have hb : b ≠ quote := by
      rcases hquote with rfl | rfl
      · exact h4.2.1
      · exact h4.1
    simp [run, step, hb, h4.2.2]

/-- Inside a string literal, an escaped text is read as the text. -/
theorem run_escape {quote : UInt8} (hquote : quote = 0x27 ∨ quote = 0x22) (read s : Octets) :
    run (.literal quote read) (escape s) = ([], .literal quote (read ++ s)) := by
  induction s generalizing read with
  | nil => simp [escape, run]
  | cons b s ih =>
      have hsplit : escape (b :: s) = escapeOctet b ++ escape s := by simp [escape]
      rw [hsplit, run_append_eq (run_escapeOctet hquote read b) (ih (read ++ [b]))]
      simp

/-- Escaping removes the NULs. -/
theorem nul_not_mem_escape (s : Octets) : 0 ∉ escape s := by
  simp only [escape, List.mem_flatMap, not_exists, not_and]
  intro b _
  unfold escapeOctet
  split_ifs with h0 h1 h2 h3 h4
  · decide
  · decide
  · decide
  · decide
  · rcases h4 with rfl | rfl | rfl <;> decide
  · simpa [eq_comm] using h0

/-- Escaping doubles the length at most. -/
theorem length_escape_le (s : Octets) : (escape s).length ≤ 2 * s.length := by
  induction s with
  | nil => simp [escape]
  | cons b s ih =>
      have hb : (escapeOctet b).length ≤ 2 := by
        unfold escapeOctet
        split_ifs <;> simp
      have hsplit : escape (b :: s) = escapeOctet b ++ escape s := by simp [escape]
      rw [hsplit, List.length_append, List.length_cons]
      omega

end Sql

import HttpServerDemo.Library.SqlText
import HttpServerDemo.Store.World

/-!
# The text of the statements

What `UserRepository` puts together as SQL and `MysqlConn` passes to `mysql_query`. Client text is
escaped into a buffer, read back from it as a C string, and put between quotes; the statement is a
C string once more. `lex_sql` says that MySQL reads every statement as the tokens it is meant to
have, whatever the client sent, so that the values of an operation are those that MySQL gets.
-/

namespace HttpServerDemo

open Sql

/-- The part of the MySQL client library that escapes text. On well-formed text
`mysql_real_escape_string` writes NUL, newline, carriage return, Ctrl-Z, backslash and both quotes
as a backslash with another octet, and copies everything else. -/
structure MysqlClient where
  realEscapeString : Octets → Octets
  realEscapeString_text : ∀ s : Text, realEscapeString s.bytes = Sql.escape s.bytes

/-- A client library that escapes every byte string in this way. -/
def MysqlClient.standard : MysqlClient :=
  ⟨Sql.escape, fun _ => rfl⟩

/-- Write a string and its NUL over the first octets of a buffer. `none` where they do not fit. -/
def writeCStr (s buf : Octets) : Option Octets :=
  if s.length < buf.length then some (s ++ 0 :: buf.drop (s.length + 1)) else none

/-- `MysqlConn::escape`. `none` where the buffer overflows. -/
def MysqlConn.escape (client : MysqlClient) (s : Octets) : Option Octets := do
  let buf := List.replicate (s.length * 2 + 1) 0
  let buf ← writeCStr (client.realEscapeString s) buf
  return Octets.cStr buf

/-- The statements of the repository with their values. -/
inductive Statement where
  | insertUser (name email : Text) (now : Int64)
  | select (q : Query)
  deriving DecidableEq

/-- The SQL that the repository puts together. -/
def Statement.sql (client : MysqlClient) : Statement → Option Octets
  | .insertUser name email now => do
      let name ← MysqlConn.escape client name.bytes
      let email ← MysqlConn.escape client email.bytes
      return Octets.ascii "INSERT INTO users(name, email, created_at) VALUES('" ++ name ++
        Octets.ascii "','" ++ email ++ Octets.ascii "'," ++ Decimal.ofInt now.toInt ++
        Octets.ascii ")"
  | .select (.userById id) => do
      let id ← MysqlConn.escape client id.bytes
      return Octets.ascii "SELECT id, name, email, created_at FROM users WHERE id='" ++ id ++
        Octets.ascii "'"
  | .select .countUsers => some (Octets.ascii "SELECT COUNT(*) FROM users")
  | .select (.usersPage limit offset) =>
      some (Octets.ascii "SELECT id, name, email, created_at FROM users ORDER BY id LIMIT " ++
        Decimal.ofInt limit.toInt ++ Octets.ascii " OFFSET " ++ Decimal.ofInt offset.toInt)

/-- What `MysqlConn::execute` and `MysqlConn::query` pass to `mysql_query`. -/
def MysqlConn.sent (sql : Octets) : Octets :=
  Octets.cStr sql

/-- The statement of an operation. -/
def Op.statement : Op → Option Statement
  | .execute _ name email now => some (.insertUser name email now)
  | .query _ q => some (.select q)
  | _ => none

/-- What an operation passes to `mysql_query`. -/
def Op.sent (client : MysqlClient) (o : Op) : Option Octets :=
  o.statement.bind fun statement => (statement.sql client).map MysqlConn.sent

/-! ## The tokens of the statements -/

/-- A word of ASCII letters. -/
abbrev word (name : String) : Token :=
  .word (Octets.ascii name)

/-- A punctuation mark. -/
abbrev symbol (c : Char) : Token :=
  .symbol (UInt8.ofNat c.toNat)

/-- `SELECT id, name, email, created_at FROM users` -/
def selectUsers : List Token :=
  [word "SELECT", word "id", symbol ',', word "name", symbol ',', word "email", symbol ',',
    word "created_at", word "FROM", word "users"]

/-- The tokens that a statement is meant to have. -/
def Statement.tokens : Statement → List Token
  | .insertUser name email now =>
      [word "INSERT", word "INTO", word "users", symbol '(', word "name", symbol ',', word "email",
        symbol ',', word "created_at", symbol ')', word "VALUES", symbol '(',
        .string name.bytes, symbol ',', .string email.bytes, symbol ','] ++
        integerTokens now.toInt ++ [symbol ')']
  | .select (.userById id) =>
      selectUsers ++ [word "WHERE", word "id", symbol '=', .string id.bytes]
  | .select .countUsers =>
      [word "SELECT", word "COUNT", symbol '(', symbol '*', symbol ')', word "FROM", word "users"]
  | .select (.usersPage limit offset) =>
      selectUsers ++ [word "ORDER", word "BY", word "id", word "LIMIT"] ++
        integerTokens limit.toInt ++ [word "OFFSET"] ++ integerTokens offset.toInt

/-! ## Escaping -/

/-- The escaped text and its NUL fit into the buffer. -/
theorem length_real_escape_string (client : MysqlClient) (s : Text) :
    (client.realEscapeString s.bytes).length + 1 ≤ 2 * s.bytes.length + 1 := by
  rw [client.realEscapeString_text]
  exact Nat.succ_le_succ (length_escape_le s.bytes)

/-- A C string is read back from a buffer that it fits into. -/
theorem cStr_writeCStr {s buf : Octets} (hnul : 0 ∉ s) (hfits : s.length < buf.length) :
    (writeCStr s buf).map Octets.cStr = some s := by
  have hend : ∀ rest : Octets, Octets.cStr (0 :: rest) = [] := fun rest => rfl
  rw [writeCStr, if_pos hfits, Option.map_some, Octets.cStr_append hnul, hend, List.append_nil]

/-- `escape` returns the escaped text in full. -/
theorem escape_eq (client : MysqlClient) (s : Text) :
    MysqlConn.escape client s.bytes = some (Sql.escape s.bytes) := by
  have hlength := length_real_escape_string client s
  rw [client.realEscapeString_text] at hlength
  have hfits : (Sql.escape s.bytes).length <
      (List.replicate (s.bytes.length * 2 + 1) (0 : UInt8)).length := by
    rw [List.length_replicate]
    omega
  have hread := cStr_writeCStr (nul_not_mem_escape s.bytes) hfits
  rw [MysqlConn.escape, client.realEscapeString_text, ← hread]
  exact Option.map_eq_bind.symm

/-! ## Reading the statements -/

/-- Inside quotes, an escaped text is read as the text. -/
theorem run_escaped (s : Text) :
    run (.literal 0x27 []) (Sql.escape s.bytes) = ([], .literal 0x27 s.bytes) :=
  run_escape (.inl rfl) [] s.bytes

theorem lex_insert (name email : Text) (now : Int64) :
    lex (Octets.ascii "INSERT INTO users(name, email, created_at) VALUES('" ++
        Sql.escape name.bytes ++ Octets.ascii "','" ++ Sql.escape email.bytes ++
        Octets.ascii "'," ++ Decimal.ofInt now.toInt ++ Octets.ascii ")") =
      some (Statement.insertUser name email now).tokens := by
  have hhead : run .between (Octets.ascii "INSERT INTO users(name, email, created_at) VALUES('") =
      ([word "INSERT", word "INTO", word "users", symbol '(', word "name", symbol ',',
        word "email", symbol ',', word "created_at", symbol ')', word "VALUES", symbol '('],
        .literal 0x27 []) := rfl
  have hname := run_append_eq hhead (run_escaped name)
  -- the quote ends the name, and the next one starts the email
  have hcomma : run (.literal 0x27 name.bytes) (Octets.ascii "','") =
      ([.string name.bytes, symbol ','], .literal 0x27 []) := rfl
  have hemail := run_append_eq (run_append_eq hname hcomma) (run_escaped email)
  have hcomma' : run (.literal 0x27 email.bytes) (Octets.ascii "',") =
      ([.string email.bytes, symbol ','], .between) := rfl
  have hnow := run_append_eq (run_append_eq hemail hcomma') (run_ofInt now.toInt)
  have hend : run (.number (Decimal.ofNat now.toInt.natAbs)) (Octets.ascii ")") =
      ([.number now.toInt.natAbs, symbol ')'], .between) :=
    run_number_end now.toInt.natAbs rfl []
  rw [lex_of_run (run_append_eq hnow hend) rfl]
  simp [Statement.tokens, integerTokens]

theorem lex_user_by_id (id : Text) :
    lex (Octets.ascii "SELECT id, name, email, created_at FROM users WHERE id='" ++
        Sql.escape id.bytes ++ Octets.ascii "'") =
      some (Statement.select (.userById id)).tokens := by
  have hhead : run .between
      (Octets.ascii "SELECT id, name, email, created_at FROM users WHERE id='") =
      (selectUsers ++ [word "WHERE", word "id", symbol '='], .literal 0x27 []) := rfl
  have hid := run_append_eq hhead (run_escaped id)
  have hend : run (.literal 0x27 id.bytes) (Octets.ascii "'") = ([], .closed 0x27 id.bytes) := rfl
  rw [lex_of_run (run_append_eq hid hend) rfl]
  simp [Statement.tokens, quotedToken]

theorem lex_users_page (limit offset : Int32) :
    lex (Octets.ascii "SELECT id, name, email, created_at FROM users ORDER BY id LIMIT " ++
        Decimal.ofInt limit.toInt ++ Octets.ascii " OFFSET " ++ Decimal.ofInt offset.toInt) =
      some (Statement.select (.usersPage limit offset)).tokens := by
  have hhead : run .between
      (Octets.ascii "SELECT id, name, email, created_at FROM users ORDER BY id LIMIT ") =
      (selectUsers ++ [word "ORDER", word "BY", word "id", word "LIMIT"], .between) := by
    decide +kernel
  have hlimit := run_append_eq hhead (run_ofInt limit.toInt)
  have hmiddle : run (.number (Decimal.ofNat limit.toInt.natAbs)) (Octets.ascii " OFFSET ") =
      ([.number limit.toInt.natAbs, word "OFFSET"], .between) :=
    run_number_end limit.toInt.natAbs rfl (Octets.ascii "OFFSET ")
  have hoffset := run_append_eq (run_append_eq hlimit hmiddle) (run_ofInt offset.toInt)
  have hread := Decimal.read_ofNat offset.toInt.natAbs
  rw [lex_of_run hoffset rfl, hread]
  simp [Statement.tokens, integerTokens]

/-- Every statement is put together without an overflow and without NUL, and MySQL reads it as the
tokens that it is meant to have. -/
theorem lex_sql (client : MysqlClient) (statement : Statement) :
    ∃ sql, statement.sql client = some sql ∧ 0 ∉ sql ∧ lex sql = some statement.tokens := by
  cases statement with
  | insertUser name email now =>
      refine ⟨_, by rw [Statement.sql, escape_eq, escape_eq]; rfl, ?_, lex_insert name email now⟩
      simp only [List.mem_append, not_or]
      exact ⟨⟨⟨⟨⟨⟨by decide, nul_not_mem_escape _⟩, by decide⟩, nul_not_mem_escape _⟩,
        by decide⟩, Decimal.nul_not_mem_ofInt _⟩, by decide⟩
  | select q =>
      cases q with
      | userById id =>
          refine ⟨_, by rw [Statement.sql, escape_eq]; rfl, ?_, lex_user_by_id id⟩
          simp only [List.mem_append, not_or]
          exact ⟨⟨by decide, nul_not_mem_escape _⟩, by decide⟩
      | countUsers => exact ⟨_, rfl, by decide, rfl⟩
      | usersPage limit offset =>
          refine ⟨_, rfl, ?_, lex_users_page limit offset⟩
          simp only [List.mem_append, not_or]
          exact ⟨⟨⟨by decide, Decimal.nul_not_mem_ofInt _⟩, by decide⟩,
            Decimal.nul_not_mem_ofInt _⟩

/-- An operation sends the SQL of its statement in full. -/
theorem sent_eq (client : MysqlClient) {o : Op} {statement : Statement}
    (ho : o.statement = some statement) :
    ∃ sql, statement.sql client = some sql ∧ o.sent client = some sql ∧
      lex sql = some statement.tokens := by
  obtain ⟨sql, hsql, hnul, hlex⟩ := lex_sql client statement
  refine ⟨sql, hsql, ?_, hlex⟩
  rw [Op.sent, ho, Option.bind_some, hsql, Option.map_some, MysqlConn.sent,
    Octets.cStr_eq_self hnul]

/-- The tokens determine the statement and its values. -/
theorem tokens_injective : Function.Injective Statement.tokens := by
  intro st st' h
  cases st with
  | insertUser name email now =>
      cases st' with
      | insertUser name' email' now' =>
          simp only [Statement.tokens, List.cons_append, List.cons.injEq, Token.string.injEq,
            true_and, List.nil_append] at h
          obtain ⟨hname, hemail, hnow⟩ := h
          rw [Text.ext hname, Text.ext hemail,
            Int64.toInt_inj.mp (integerTokens_append_inj hnow).1]
      | select q => cases q <;> simp [Statement.tokens, selectUsers, Octets.ascii] at h
  | select q =>
      cases st' with
      | insertUser name' email' now' =>
          cases q <;> simp [Statement.tokens, selectUsers, Octets.ascii] at h
      | select q' =>
          cases q with
          | userById id =>
              cases q' with
              | userById id' =>
                  simp only [Statement.tokens, List.append_cancel_left_eq, List.cons.injEq,
                    Token.string.injEq, true_and, and_true] at h
                  rw [Text.ext h]
              | countUsers | usersPage =>
                  simp [Statement.tokens, selectUsers, Octets.ascii] at h
          | countUsers =>
              cases q' with
              | countUsers => rfl
              | userById | usersPage => simp [Statement.tokens, selectUsers, Octets.ascii] at h
          | usersPage limit offset =>
              cases q' with
              | usersPage limit' offset' =>
                  simp only [Statement.tokens, List.append_assoc,
                    List.append_cancel_left_eq] at h
                  obtain ⟨hlimit, hrest⟩ := integerTokens_append_inj h
                  have hoffset : integerTokens offset.toInt ++ [] =
                      integerTokens offset'.toInt ++ [] := by simpa using hrest
                  rw [Int32.toInt_inj.mp hlimit,
                    Int32.toInt_inj.mp (integerTokens_append_inj hoffset).1]
              | userById | countUsers => simp [Statement.tokens, selectUsers, Octets.ascii] at h

/-- Operations that send the same text have the same statement with the same values. -/
theorem statement_of_sent {client : MysqlClient} {o o' : Op} {s : Octets}
    (h : o.sent client = some s) (h' : o'.sent client = some s) : o.statement = o'.statement := by
  obtain ⟨st, hst, -⟩ := Option.bind_eq_some_iff.mp h
  obtain ⟨st', hst', -⟩ := Option.bind_eq_some_iff.mp h'
  obtain ⟨sql, -, hsent, hlex⟩ := sent_eq client hst
  obtain ⟨sql', -, hsent', hlex'⟩ := sent_eq client hst'
  cases hsent.symm.trans h
  cases hsent'.symm.trans h'
  have htokens : st.tokens = st'.tokens := Option.some.inj (hlex.symm.trans hlex')
  rw [hst, hst', tokens_injective htokens]

/-- Whatever text the client sends, the escaped text fits into its buffer and comes out of it in
full, and MySQL reads the INSERT of `CreateUser` and the SELECT of `GetUser` with one string
literal for every text, which denotes it. -/
theorem client_text_stays_in_literal (client : MysqlClient) (conn : Nat) (name email id : Text)
    (now : Int64) :
    (∀ s : Text, (client.realEscapeString s.bytes).length + 1 ≤ 2 * s.bytes.length + 1 ∧
      MysqlConn.escape client s.bytes = some (client.realEscapeString s.bytes)) ∧
    (∃ sql, (Statement.insertUser name email now).sql client = some sql ∧
      (Op.execute conn name email now).sent client = some sql ∧
      lex sql = some (
        [word "INSERT", word "INTO", word "users", symbol '(', word "name", symbol ',',
          word "email", symbol ',', word "created_at", symbol ')', word "VALUES", symbol '(',
          .string name.bytes, symbol ',', .string email.bytes, symbol ','] ++
          integerTokens now.toInt ++ [symbol ')'])) ∧
    ∃ sql, (Statement.select (.userById id)).sql client = some sql ∧
      (Op.query conn (.userById id)).sent client = some sql ∧
      lex sql = some (
        [word "SELECT", word "id", symbol ',', word "name", symbol ',', word "email", symbol ',',
          word "created_at", word "FROM", word "users", word "WHERE", word "id", symbol '=',
          .string id.bytes]) := by
  refine ⟨fun s => ⟨length_real_escape_string client s, ?_⟩, ?_, ?_⟩
  · rw [escape_eq, client.realEscapeString_text]
  · exact sent_eq client (o := .execute conn name email now) rfl
  · exact sent_eq client (o := .query conn (.userById id)) rfl

/-- A name that would end its literal and the statement. -/
example : lex (Octets.ascii "'" ++ Sql.escape (Octets.ascii "a');-- ") ++ Octets.ascii "'") =
    some [.string (Octets.ascii "a');-- ")] := by
  decide

end HttpServerDemo

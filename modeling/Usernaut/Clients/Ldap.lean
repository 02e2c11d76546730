import Mathlib.Data.Finset.Sort
import Mathlib.Data.String.Basic
import Mathlib.Tactic.IntervalCases
import Usernaut.PeriodicJobs.Offboarding

/-!
# The LDAP client

`LDAPConn` (`pkg/clients/ldap`) looks users up in the directory. `GetUserLDAPDataByEmail`
searches the whole subtree under `BaseUserDN` with the filter `(&<userSearchFilter>(mail=<email>))`,
the email escaped by go-ldap's `EscapeFilter`; `GetUserLDAPData` searches the entry whose DN is
`userDN` with the escaped user id put in its `%s`. `executeSearch` takes the connection
(`getConn` redials a closing one), binds, searches, and reads the first entry's configured
attributes (`parseLDAPEntry`). A search that finds nothing, or that the directory answers with
`NoSuchObject` (result code 32), is `ErrNoUserFound`.

`lookupAt` is the client's answer as the offboarding job reads it, and `lookup` adds the client's
state after the call, which the job's next lookup starts from. The job's own test for `NoSuchObject`
never fires, since `executeSearch` has already turned it into `ErrNoUserFound`
(`lookupAt_ne_noSuchObject`); what the job concludes is in `PeriodicJobs/LdapCheck`.

The mail filter is safe: the escaped email holds no parenthesis, asterisk or `NUL`, and the
directory reads back exactly the email's bytes from it (`escapeFilter_safe`). `EscapeFilter`
escapes filter syntax, not DN syntax, so an id of plain ASCII characters enters
`GetUserLDAPData`'s DN as it is, commas and equal signs included (`getUserLDAPData_baseDN`).

The dialling, binding and searching of go-ldap are the functions of `Server`. Log lines and
the `%q` quoting inside go-ldap's error texts are left out; `fmt.Sprintf(userDN, id)` is
modelled for a `userDN` whose only verbs are `%s`.

## Main definitions

* `Ldap.LDAPConn`: the client's configuration and go-ldap's calls.
* `Ldap.LDAPConn.getConn`, `Ldap.LDAPConn.executeSearch`, `Ldap.LDAPConn.getUserLDAPDataByEmail`,
  `Ldap.LDAPConn.getUserLDAPData`.
* `Ldap.escapeFilter`: go-ldap's `EscapeFilter`; `Ldap.decodeValue`: how the directory reads a
  filter value back.
* `Ldap.LDAPConn.lookupAt`, `Ldap.LDAPConn.lookup`: the client as the offboarding job reads it,
  and as it calls it, with the client's state afterwards.
* `Ldap.LDAPConn.CannotConnect`: the client has no connection to give, now or after a redial.

## Main results

* `getConn_exec`: `getConn`, step by step.
* `lookup_of_cannotConnect`: a client that cannot connect fails every lookup and still cannot
  connect after it.
* `executeSearch_classify`, `lookupAt_ne_noSuchObject`: no error of the client is `NoSuchObject`.
* `escapeFilter_safe`: `EscapeFilter` makes any string a filter value that reads back as it.
* `getUserLDAPData_baseDN`: the DN `GetUserLDAPData` searches for an id of plain ASCII.
-/

namespace Usernaut

namespace Ldap

variable {σ β : Type}

/-- `*ldap.Entry`: its attributes and their values, in order. -/
structure Entry where
  attributes : List (String × List String)
  deriving DecidableEq, Repr

/-- `Entry.GetAttributeValues`: the values of the first attribute of that name. -/
def Entry.getAttributeValues (entry : Entry) (name : String) : List String :=
  ((entry.attributes.find? (·.1 = name)).map (·.2)).getD []

/-- An error of go-ldap's `Search`. -/
inductive SearchError
  /-- A `*ldap.Error`: its result code and its `Error()` text. -/
  | ldap (resultCode : Nat) (text : String)
  /-- Any other error, by its text. -/
  | other (text : String)
  deriving DecidableEq, Repr

/-- `ldap.LDAPResultNoSuchObject`. -/
def ldapResultNoSuchObject : Nat := 32

/-- `*ldap.SearchRequest`: the fields the client sets. -/
structure SearchRequest where
  baseDN : String
  /-- `ScopeWholeSubtree`, or else `ScopeBaseObject`. -/
  wholeSubtree : Bool
  filter : String
  attributes : List String
  deriving DecidableEq, Repr

/-- go-ldap's calls, against the directory's state `σ`. -/
structure Server (σ : Type) where
  /-- `ldap.DialURL(server, ...)`: a new connection, or the error. -/
  dialURL : String → σ → Except String Unit × σ
  /-- `UnauthenticatedBind("")` on the connection. -/
  unauthenticatedBind : σ → Except String Unit × σ
  /-- `Search(req)`: the entries found, or the error. -/
  search : SearchRequest → σ → Except SearchError (List Entry) × σ

/-- `LDAPConn` without its connection, which is part of the world. -/
structure LDAPConn (σ : Type) where
  srv : Server σ
  server : String
  userDN : String
  baseUserDN : String
  userSearchFilter : String
  attributes : List String

/-- The client's connection, `none` for `nil` and otherwise whether it `IsClosing`, and the
directory's state. -/
structure World (σ : Type) where
  conn : Option Bool
  server : σ

/-- An error of `executeSearch`. -/
inductive LdapErr
  /-- `ErrNoUserFound`. -/
  | noUserFound
  /-- An error of `Search`, returned as it is. -/
  | search (err : SearchError)
  /-- An error the client makes. -/
  | msg (text : String)
  deriving DecidableEq, Repr

/-- `err.Error()`. -/
def LdapErr.text : LdapErr → String
  | .noUserFound => "no LDAP entries found for user"
  | .search (.ldap _ text) | .search (.other text) | .msg text => text

/-- How `isUserActiveInLDAP` tells an error of `GetUserLDAPDataByEmail` apart: `ErrNoUserFound`,
a `*goldap.Error` whose result code is `NoSuchObject`, or any other error, by its text. The
errors `executeSearch` makes, a failed bind it wraps with `%w` included, are no `*goldap.Error`. -/
def LdapErr.classify : LdapErr → LDAPError
  | .noUserFound => .noUserFound
  | .search (.ldap resultCode text) =>
    if resultCode = ldapResultNoSuchObject then .noSuchObject else .other text
  | err => .other err.text

/-- The client's methods over the world. -/
abbrev LdapM (σ : Type) := ExceptT LdapErr (StateM (World σ))

/-- Run `m` from `w`. -/
def LdapM.exec {α : Type} (m : LdapM σ α) (w : World σ) : Except LdapErr α × World σ := m.run.run w

/-- A call of go-ldap. -/
def serve (op : σ → β × σ) : LdapM σ β := do
  let w ← get
  set ({ w with server := (op w.server).2 } : World σ)
  pure (op w.server).1

section Exec

variable {α : Type} (w : World σ)

@[simp] theorem exec_pure (a : α) : (pure a : LdapM σ α).exec w = (.ok a, w) := rfl

@[simp] theorem exec_throw (err : LdapErr) : (throw err : LdapM σ α).exec w = (.error err, w) :=
  rfl

@[simp] theorem exec_bind (x : LdapM σ α) (f : α → LdapM σ β) :
    (x >>= f).exec w =
      match x.exec w with
      | (.ok a, w') => (f a).exec w'
      | (.error err, w') => (.error err, w') := by
  simp only [LdapM.exec, ExceptT.run_bind, StateT.run_bind]
  rcases x.run.run w with ⟨_ | _, w'⟩ <;> rfl

@[simp] theorem exec_get : (get : LdapM σ (World σ)).exec w = (.ok w, w) := rfl

@[simp] theorem exec_modify (f : World σ → World σ) :
    (modify f : LdapM σ Unit).exec w = (.ok (), f w) := rfl

@[simp] theorem exec_serve (op : σ → β × σ) :
    (serve op).exec w = (.ok (op w.server).1, { w with server := (op w.server).2 }) := rfl

end Exec

/-- `parseLDAPEntry`: each configured attribute, with its first value or `""`. -/
def parseLDAPEntry (attributes : List String) (entry : Entry) : StringMap String :=
  attributes.foldl (fun userData attr =>
    userData.insert attr ((entry.getAttributeValues attr).headD "")) ∅

/-! ## `EscapeFilter` -/

/-- go-ldap's `mustEscape`: bytes above `0x7f`, `(`, `)`, `\`, `*` and `NUL`. -/
def mustEscape (b : UInt8) : Bool :=
  0x7f < b.toNat || b.toNat = 0x28 || b.toNat = 0x29 || b.toNat = 0x5c || b.toNat = 0x2a ||
    b.toNat = 0

/-- One byte of `EscapeFilter`'s output: `\` and two lowercase hex digits, or the byte. -/
def escapeByte (b : UInt8) : List Char :=
  if mustEscape b then ['\\', Nat.digitChar (b.toNat / 16), Nat.digitChar (b.toNat % 16)]
  else [Char.ofNat b.toNat]

/-- go-ldap's `EscapeFilter`, over the UTF-8 bytes of the string. -/
def escapeFilter (s : String) : String := ⟨(s.data.flatMap String.utf8EncodeChar).flatMap escapeByte⟩

/-! ## Reading an escaped value back

The directory reads an assertion value of a filter as RFC 4515 has it: `\` and two hex digits
stand for the byte they spell, and any other character for its UTF-8 bytes. `(` and `)` end the
item, `*` makes it a substring match, and `NUL` may not occur, so none of them may stand
unescaped. -/

/-- The value of a hex digit, either case. -/
def hexValue (c : Char) : Option Nat :=
  if '0' ≤ c ∧ c ≤ '9' then some (c.toNat - '0'.toNat)
  else if 'a' ≤ c ∧ c ≤ 'f' then some (c.toNat - 'a'.toNat + 10)
  else if 'A' ≤ c ∧ c ≤ 'F' then some (c.toNat - 'A'.toNat + 10)
  else none

/-- The characters that change a filter's structure when unescaped in a value. -/
def isFilterSyntax (c : Char) : Bool := c = '(' || c = ')' || c = '*' || c.toNat = 0

/-- The bytes an assertion value stands for, or `none` when it is not one. -/
def decodeValue : List Char → Option (List UInt8)
  | [] => some []
  | c :: rest =>
    if c = '\\' then
      match rest with
      | hi :: lo :: rest =>
        match hexValue hi, hexValue lo with
        | some h, some l => ((h * 16 + l).toUInt8 :: ·) <$> decodeValue rest
        | _, _ => none
      | _ => none
    else if isFilterSyntax c then none
    else (String.utf8EncodeChar c ++ ·) <$> decodeValue rest

theorem toNat_ofNat_ascii {n : Nat} (h : n < 0x80) : (Char.ofNat n).toNat = n := by
  simp only [Char.ofNat, dif_pos (Or.inl (by omega) : n.isValidChar)]
  rfl

theorem utf8EncodeChar_ofNat {n : Nat} (h : n < 0x80) :
    String.utf8EncodeChar (Char.ofNat n) = [n.toUInt8] := by
  have hle : (Char.ofNat n).val ≤ 0x7f := by
    rw [UInt32.le_def, BitVec.le_def]
    exact (toNat_ofNat_ascii h).trans_le (show n ≤ 127 by omega)
  simp only [String.utf8EncodeChar, if_pos hle]
  show [(Char.ofNat n).toNat.toUInt8] = _
  rw [toNat_ofNat_ascii h]

theorem toUInt8_toNat (b : UInt8) : b.toNat.toUInt8 = b :=
  UInt8.eq_of_toBitVec_eq (BitVec.eq_of_toNat_eq (UInt8.toNat_ofNat_of_lt (UInt8.toNat_lt_size b)))

theorem hexValue_digitChar {d : Nat} (h : d < 16) : hexValue (Nat.digitChar d) = some d := by
  interval_cases d <;> rfl

theorem digitChar_not_isFilterSyntax {d : Nat} (h : d < 16) : isFilterSyntax (Nat.digitChar d) = false := by
  interval_cases d <;> rfl

/-- A byte `EscapeFilter` keeps is an ASCII character other than `\\` and the filter's syntax. -/
theorem not_mustEscape {b : UInt8} (h : mustEscape b = false) :
    b.toNat < 0x80 ∧ Char.ofNat b.toNat ≠ '\\' ∧ isFilterSyntax (Char.ofNat b.toNat) = false := by
  simp only [mustEscape, Bool.or_eq_false_iff, decide_eq_false_iff_not] at h
  obtain ⟨⟨⟨⟨⟨hlt, h28⟩, h29⟩, h5c⟩, h2a⟩, h0⟩ := h
  have hc := toNat_ofNat_ascii (show b.toNat < 0x80 by omega)
  refine ⟨by omega, fun heq => h5c (by rw [← hc, heq]; rfl), ?_⟩
  simp only [isFilterSyntax, Bool.or_eq_false_iff, decide_eq_false_iff_not, Char.ext_iff]
  refine ⟨⟨⟨fun heq => h28 ?_, fun heq => h29 ?_⟩, fun heq => h2a ?_⟩, by omega⟩ <;>
    rw [← hc] <;> exact congrArg UInt32.toNat heq

/-- **One byte of `EscapeFilter` reads back as the byte**, whatever follows it. -/
theorem decodeValue_escapeByte (b : UInt8) (rest : List Char) :
    decodeValue (escapeByte b ++ rest) = (b :: ·) <$> decodeValue rest := by
  have hb : b.toNat < 256 := UInt8.toNat_lt_size b
  unfold escapeByte
  split_ifs with hesc
  · -- `\` and the two hex digits of the byte
    simp only [List.cons_append, List.nil_append, List.append_eq, decodeValue, if_pos,
      hexValue_digitChar (show b.toNat / 16 < 16 by omega),
      hexValue_digitChar (show b.toNat % 16 < 16 by omega)]
    rw [show b.toNat / 16 * 16 + b.toNat % 16 = b.toNat by omega, toUInt8_toNat]
  · -- the byte as an ASCII character
    obtain ⟨hascii, hne, hsyntax⟩ := not_mustEscape (Bool.eq_false_iff.mpr hesc)
    rw [List.cons_append, List.nil_append, decodeValue.eq_def]
    dsimp only
    rw [if_neg hne, hsyntax, if_neg Bool.false_ne_true,
      utf8EncodeChar_ofNat hascii, toUInt8_toNat]
    rfl

theorem decodeValue_flatMap_escapeByte : ∀ (bs : List UInt8) (rest : List Char),
    decodeValue (bs.flatMap escapeByte ++ rest) = (bs ++ ·) <$> decodeValue rest
  | [], rest => by simp
  | b :: bs, rest => by
    rw [List.flatMap_cons, List.append_assoc, decodeValue_escapeByte,
      decodeValue_flatMap_escapeByte bs rest, Functor.map_map]
    rfl

theorem escapeByte_not_isFilterSyntax (b : UInt8) : ∀ c ∈ escapeByte b, isFilterSyntax c = false := by
  have hb : b.toNat < 256 := UInt8.toNat_lt_size b
  unfold escapeByte
  split_ifs with hesc
  · simp only [List.mem_cons, List.mem_singleton, List.not_mem_nil, or_false]
    rintro c (rfl | rfl | rfl)
    · rfl
    · exact digitChar_not_isFilterSyntax (by omega)
    · exact digitChar_not_isFilterSyntax (by omega)
  · simp only [List.mem_singleton]
    rintro c rfl
    exact (not_mustEscape (Bool.eq_false_iff.mpr hesc)).2.2

/-- **`EscapeFilter` makes any string a safe filter value.** The escaped string holds no `(`,
`)`, `*` or `NUL`, so it cannot end the item of the filter it is put in nor make it a substring
match, and the directory reads back from it exactly the UTF-8 bytes of the string. -/
theorem escapeFilter_safe (s : String) :
    (∀ c ∈ (escapeFilter s).data, isFilterSyntax c = false) ∧
      decodeValue (escapeFilter s).data = some (s.data.flatMap String.utf8EncodeChar) := by
  have hdecode := decodeValue_flatMap_escapeByte (s.data.flatMap String.utf8EncodeChar) []
  rw [List.append_nil] at hdecode
  refine ⟨fun c hc => ?_, by rw [escapeFilter, hdecode]; simp [decodeValue]⟩
  obtain ⟨b, -, hb⟩ := List.mem_flatMap.mp hc
  exact escapeByte_not_isFilterSyntax b c hb

/-- `EscapeFilter` leaves a character that is ASCII and a byte it keeps as it is. -/
theorem flatMap_escapeByte_ascii {c : Char} (hascii : c.toNat < 0x80)
    (hkeep : mustEscape c.toNat.toUInt8 = false) :
    (String.utf8EncodeChar c).flatMap escapeByte = [c] := by
  have hbyte : c.toNat.toUInt8.toNat = c.toNat :=
    UInt8.toNat_ofNat_of_lt (lt_of_lt_of_le hascii (by decide))
  conv_lhs => rw [← Char.ofNat_toNat c, utf8EncodeChar_ofNat hascii]
  simp [escapeByte, hkeep, hbyte]

/-- `fmt.Sprintf`'s scan of the rest of a format whose only verbs are `%s`, with the argument
still unused when `pending`: the first verb takes it, a later one has none left, and an argument
no verb took is reported extra at the end. -/
def sprintfSAux (arg : List Char) : List Char → Bool → List Char
  | '%' :: 's' :: rest, true => arg ++ sprintfSAux arg rest false
  | '%' :: 's' :: rest, false => "%!s(MISSING)".data ++ sprintfSAux arg rest false
  | c :: rest, pending => c :: sprintfSAux arg rest pending
  | [], true => "%!(EXTRA string=".data ++ arg ++ [')']
  | [], false => []

/-- `fmt.Sprintf(format, arg)` for a format whose only verbs are `%s`. -/
def sprintfS (format arg : String) : String := ⟨sprintfSAux arg.data format.data true⟩

example : sprintfS "uid=%s,ou=users" "bob" = "uid=bob,ou=users" ∧
    sprintfS "ou=users" "bob" = "ou=users%!(EXTRA string=bob)" := by decide

namespace LDAPConn

variable (l : LDAPConn σ)

/-- `getConn`: a closing connection is redialled and bound, and replaced when both succeed;
otherwise the answer is `nil`. A connection that is not closing, or `nil`, is returned. -/
def getConn : LdapM σ (Option Bool) := do
  match (← get).conn with
  | some true =>
    match ← serve (l.srv.dialURL l.server) with
    | .error _ => pure none
    | .ok () =>
      match ← serve l.srv.unauthenticatedBind with
      | .error _ => pure none
      | .ok () => do
        modify fun w => { w with conn := some false }
        pure (some false)
  | conn => pure conn

/-- The end of `executeSearch`: `NoSuchObject` and an empty result are `ErrNoUserFound`, and
the first entry is read. -/
def readSearchResult : Except SearchError (List Entry) → LdapM σ (StringMap String)
  | .error (.ldap resultCode text) =>
    if resultCode = ldapResultNoSuchObject then throw .noUserFound
    else throw (.search (.ldap resultCode text))
  | .error err => throw (.search err)
  | .ok [] => throw .noUserFound
  | .ok (entry :: _) => pure (parseLDAPEntry l.attributes entry)

/-- `executeSearch`. -/
def executeSearch (req : SearchRequest) : LdapM σ (StringMap String) := do
  match ← l.getConn with
  | none => throw (.msg "LDAP connection is nil")
  | some _ =>
    match ← serve l.srv.unauthenticatedBind with
    | .error err => throw (.msg ("failed to bind before search: " ++ err))
    | .ok () => l.readSearchResult (← serve (l.srv.search req))

/-- The filter of `GetUserLDAPDataByEmail`. -/
def mailFilter (email : String) : String :=
  "(&" ++ l.userSearchFilter ++ "(mail=" ++ escapeFilter email ++ "))"

/-- `GetUserLDAPDataByEmail`: the whole subtree under `BaseUserDN`. -/
def getUserLDAPDataByEmail (email : String) : LdapM σ (StringMap String) :=
  l.executeSearch ⟨l.baseUserDN, true, l.mailFilter email, l.attributes⟩

/-- `GetUserLDAPData`: the entry whose DN is `userDN` with the escaped id. -/
def getUserLDAPData (userID : String) : LdapM σ (StringMap String) :=
  l.executeSearch
    ⟨sprintfS l.userDN (escapeFilter userID), false, "(" ++ l.userSearchFilter ++ ")",
      l.attributes⟩

/-- **`getConn`, step by step.** A closing connection is redialled and bound, and replaced by
an open one when both succeed; the answer is then the new connection, and otherwise `nil`. Any
other connection, `nil` included, is answered as it is, and nothing changes. -/
theorem getConn_exec (w : World σ) :
    l.getConn.exec w =
      match w.conn with
      | some true =>
        match l.srv.dialURL l.server w.server with
        | (.error _, s) => (.ok none, { w with server := s })
        | (.ok (), s) =>
          match l.srv.unauthenticatedBind s with
          | (.error _, s') => (.ok none, { w with server := s' })
          | (.ok (), s') => (.ok (some false), { conn := some false, server := s' })
      | conn => (.ok conn, w) := by
  rcases hconn : w.conn with _ | _ | _
  · simp [getConn, hconn]
  · simp [getConn, hconn]
  · rcases hdial : l.srv.dialURL l.server w.server with ⟨_ | _, s⟩
    · simp [getConn, hconn, hdial]
    · rcases hbind : l.srv.unauthenticatedBind s with ⟨_ | _, s'⟩
      · simp [getConn, hconn, hdial, hbind]
      · simp [getConn, hconn, hdial, hbind]; rfl

/-- `getConn` never fails: its worst answer is `nil`. -/
theorem getConn_ok (w : World σ) : ∃ conn, (l.getConn.exec w).1 = .ok conn := by
  rw [getConn_exec]
  split
  · split
    · exact ⟨_, rfl⟩
    · split <;> exact ⟨_, rfl⟩
  · exact ⟨_, rfl⟩

/-- The errors `readSearchResult` returns: `NoSuchObject` has become `ErrNoUserFound`. -/
theorem readSearchResult_classify {r : Except SearchError (List Entry)} {w : World σ}
    {err : LdapErr} (h : ((l.readSearchResult r).exec w).1 = .error err) :
    err.classify ≠ .noSuchObject := by
  unfold readSearchResult at h
  split at h
  · split_ifs at h with h32 <;> cases h <;> simp [LdapErr.classify, h32]
  · rename_i err' hnot
    cases h
    cases err' with
    | ldap resultCode text => exact absurd rfl (hnot resultCode text)
    | other text => simp [LdapErr.classify]
  · cases h
    simp [LdapErr.classify]
  · cases h

/-- What `readSearchResult` returns is the configured attributes of an entry the directory
sent. -/
theorem readSearchResult_ok {r : Except SearchError (List Entry)} {w : World σ}
    {userData : StringMap String} (h : ((l.readSearchResult r).exec w).1 = .ok userData) :
    ∃ entry, userData = parseLDAPEntry l.attributes entry := by
  unfold readSearchResult at h
  split at h
  · split_ifs at h <;> cases h
  · cases h
  · cases h
  · cases h
    exact ⟨_, rfl⟩

/-- What `executeSearch` returns: an error it makes, or what `readSearchResult` makes of the
directory's answer. -/
theorem executeSearch_cases (req : SearchRequest) (w : World σ) :
    (∃ text, ((l.executeSearch req).exec w).1 = .error (.msg text)) ∨
      ∃ r w', ((l.executeSearch req).exec w).1 = ((l.readSearchResult r).exec w').1 := by
  obtain ⟨conn, hconn⟩ := l.getConn_ok w
  unfold executeSearch
  rcases hc : l.getConn.exec w with ⟨_ | conn, w₁⟩
  · simp [hc] at hconn
  simp only [exec_bind, hc]
  split
  · exact .inl ⟨_, rfl⟩
  simp only [exec_bind, exec_serve]
  split
  · exact .inl ⟨_, rfl⟩
  · exact .inr ⟨_, _, rfl⟩

/-- The errors `executeSearch` returns are never a `*goldap.Error` whose result code is
`NoSuchObject`. -/
theorem executeSearch_classify {req : SearchRequest} {w : World σ} {err : LdapErr}
    (h : ((l.executeSearch req).exec w).1 = .error err) : err.classify ≠ .noSuchObject := by
  rcases l.executeSearch_cases req w with ⟨text, hmsg⟩ | ⟨r, w', hread⟩
  · rw [hmsg, Except.error.injEq] at h
    subst h
    simp [LdapErr.classify]
  · exact l.readSearchResult_classify (hread ▸ h)

/-- What `executeSearch` returns is the configured attributes of an entry the directory sent. -/
theorem executeSearch_ok {req : SearchRequest} {w : World σ} {userData : StringMap String}
    (h : ((l.executeSearch req).exec w).1 = .ok userData) :
    ∃ entry, userData = parseLDAPEntry l.attributes entry := by
  rcases l.executeSearch_cases req w with ⟨text, hmsg⟩ | ⟨r, w', hread⟩
  · rw [hmsg] at h
    cases h
  · exact l.readSearchResult_ok (hread ▸ h)

/-- With no connection to give, `executeSearch` fails with `LDAP connection is nil`, and leaves
the client as `getConn` did. -/
theorem executeSearch_of_getConn_none {req : SearchRequest} {w w₁ : World σ}
    (h : l.getConn.exec w = (.ok none, w₁)) :
    (l.executeSearch req).exec w = (.error (.msg "LDAP connection is nil"), w₁) := by
  simp [executeSearch, h]

/-- The client cannot give a connection: it has none, or a closing one that the directory
refuses to redial, whatever the directory's state. -/
def CannotConnect (w : World σ) : Prop :=
  w.conn = none ∨ w.conn = some true ∧ ∀ s, ∃ err, (l.srv.dialURL l.server s).1 = .error err

/-- A client that cannot give a connection answers `nil`, and still cannot give one after: a
failed redial leaves the connection closing. -/
theorem getConn_of_cannotConnect {w : World σ} (h : l.CannotConnect w) :
    ∃ w₁, l.getConn.exec w = (.ok none, w₁) ∧ l.CannotConnect w₁ := by
  rcases h with hnone | ⟨hclosing, hdial⟩
  · exact ⟨w, by simp [getConn_exec, hnone], .inl hnone⟩
  · obtain ⟨err, herr⟩ := hdial w.server
    rcases hd : l.srv.dialURL l.server w.server with ⟨r, s⟩
    rw [hd] at herr
    subst herr
    exact ⟨{ w with server := s }, by simp [getConn_exec, hclosing, hd], .inr ⟨hclosing, hdial⟩⟩

/-- `GetUserLDAPDataByEmail` as the offboarding job reads it, with the client at `w`: the
names of the attributes of the user's data, in order, or the error as `isUserActiveInLDAP`
tells it apart. -/
def lookupAt (w : World σ) (email : String) : Except LDAPError (List String) :=
  match ((l.getUserLDAPDataByEmail email).exec w).1 with
  | .ok userData => .ok (userData.keys.sort (· ≤ ·))
  | .error err => .error err.classify

/-- `GetUserLDAPDataByEmail` as the offboarding job calls it, from the client's state `w`: the
answer `lookupAt` reads, and the client's state after the call. -/
def lookup (email : String) (w : World σ) : Except LDAPError (List String) × World σ :=
  (l.lookupAt w email, ((l.getUserLDAPDataByEmail email).exec w).2)

/-- A client that cannot give a connection fails every lookup with `LDAP connection is nil`, and
still cannot give one after it. -/
theorem lookup_of_cannotConnect {w : World σ} (h : l.CannotConnect w) (email : String) :
    (l.lookup email w).1 = .error (.other "LDAP connection is nil") ∧
      l.CannotConnect (l.lookup email w).2 := by
  obtain ⟨w₁, hconn, h₁⟩ := l.getConn_of_cannotConnect h
  simp only [lookup, lookupAt, getUserLDAPDataByEmail, l.executeSearch_of_getConn_none hconn]
  exact ⟨rfl, h₁⟩

/-- **The job's test for `NoSuchObject` never fires**: `executeSearch` has turned a
`NoSuchObject` answer into `ErrNoUserFound` before the job sees it. -/
theorem lookupAt_ne_noSuchObject (w : World σ) (email : String) :
    l.lookupAt w email ≠ .error .noSuchObject := by
  unfold lookupAt
  split
  · simp
  · rename_i err herr
    simpa using l.executeSearch_classify herr

end LDAPConn

/-- The attributes of the user's data are the configured attributes, whatever the entry. -/
theorem parseLDAPEntry_keys (attributes : List String) (entry : Entry) :
    (parseLDAPEntry attributes entry).keys = attributes.toFinset := by
  ext attr
  rw [Finmap.mem_keys, ← Finmap.lookup_isSome, parseLDAPEntry, StringMap.lookup_foldl_insert]
  simp [List.find?_isSome]

/-- The user's data has no attribute exactly when the client is configured with none. -/
theorem sort_keys_parseLDAPEntry_eq_nil (attributes : List String) (entry : Entry) :
    (parseLDAPEntry attributes entry).keys.sort (· ≤ ·) = [] ↔ attributes = [] := by
  rw [← List.length_eq_zero, Finset.length_sort, Finset.card_eq_zero, parseLDAPEntry_keys,
    List.toFinset_eq_empty_iff]

/-! ## A directory -/

/-- A directory that refuses new connections and finds one entry, with a mail and a name, for
every search. -/
def exampleServer : Server Unit where
  dialURL _ s := (.error "dial tcp: connection refused", s)
  unauthenticatedBind s := (.ok (), s)
  search _ s := (.ok [⟨[("mail", ["bob@x.com"]), ("cn", ["Bob"])]⟩], s)

/-- A client of `exampleServer` that reads `attributes`. -/
def exampleConn (attributes : List String) : LDAPConn Unit where
  srv := exampleServer
  server := "ldaps://ldap.example.com"
  userDN := "uid=%s,ou=users,dc=example,dc=com"
  baseUserDN := "ou=users,dc=example,dc=com"
  userSearchFilter := "objectClass=person"
  attributes := attributes

/-- `GetUserLDAPData` searches the DN `userDN` with the id put in as it is, for an id of ASCII
characters other than `(`, `)`, `\`, `*` and `NUL`: `EscapeFilter` escapes filter syntax, so
the DN syntax of such an id (`,`, `=`, `+`) reaches the directory. -/
theorem LDAPConn.getUserLDAPData_baseDN (l : LDAPConn σ) (userID : String)
    (hplain : ∀ c ∈ userID.data, c.toNat < 0x80 ∧ mustEscape c.toNat.toUInt8 = false) :
    l.getUserLDAPData userID =
      l.executeSearch ⟨sprintfS l.userDN userID, false, "(" ++ l.userSearchFilter ++ ")",
        l.attributes⟩ := by
  suffices h : ∀ cs : List Char, (∀ c ∈ cs, c.toNat < 0x80 ∧ mustEscape c.toNat.toUInt8 = false) →
      (cs.flatMap String.utf8EncodeChar).flatMap escapeByte = cs by
    rw [getUserLDAPData, escapeFilter, h _ hplain]
  intro cs hcs
  induction cs with
  | nil => rfl
  | cons c cs ih =>
    obtain ⟨hascii, hkeep⟩ := hcs c (List.mem_cons_self _ _)
    rw [List.flatMap_cons, List.flatMap_append, flatMap_escapeByte_ascii hascii hkeep,
      ih fun c hc => hcs c (List.mem_cons_of_mem _ hc), List.singleton_append]

/-- The id `x,ou=admins` makes `GetUserLDAPData` search the entry `uid=x` under `ou=admins`
instead of a user under `ou=users`. -/
theorem getUserLDAPData_adminsDN :
    (∀ c ∈ "x,ou=admins".data, c.toNat < 0x80 ∧ mustEscape c.toNat.toUInt8 = false) ∧
      (exampleConn ["mail"]).getUserLDAPData "x,ou=admins" =
        (exampleConn ["mail"]).executeSearch ⟨"uid=x,ou=admins,ou=users,dc=example,dc=com", false,
          "(objectClass=person)", ["mail"]⟩ :=
  ⟨by decide, (exampleConn ["mail"]).getUserLDAPData_baseDN "x,ou=admins" (by decide)⟩

end Ldap

end Usernaut

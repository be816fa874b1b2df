import CodeAudit.Document
import CodeAudit.Fault

/-!
Addresses of tables. An address is the path of a file as it stands, or `file:` before a path in
which `%` and two hexadecimal digits stand for a byte, followed by options:
`file:jobs.db?mode=ro&immutable=1`.
-/
namespace CodeAudit

/-- What a connection may do: read, write too, create the file too, or do without a file. -/
inductive Access where
  | read | write | create | memory
deriving DecidableEq, Repr

/-- What carries the file: it can keep a write-ahead log beside it, or cannot and locks the file by
a mark beside it or not at all, or it has no files. -/
inductive Carrier where
  | logging | marking | plain | memory
deriving DecidableEq, Repr

structure Address where
  path : Text
  access : Access := .create
  carrier : Carrier := .logging
  options : List (Text × Text) := []
deriving DecidableEq, Repr

namespace Access

def ofName? (name : Text) : Option Access :=
  if name = utf8 "ro" then some .read
  else if name = utf8 "rw" then some .write
  else if name = utf8 "rwc" then some .create
  else if name = utf8 "memory" then some .memory
  else none

/-- An option may narrow the access but not widen it; doing without a file narrows it, and allows
all after it. -/
def allows : Access → Access → Bool
  | _, .memory | .memory, _ | .create, _ | _, .read => true
  | .write, .write => true
  | .write, .create | .read, .write | .read, .create => false

end Access

def Carrier.ofName? (name : Text) : Option Carrier :=
  if name = utf8 "unix" ∨ name = utf8 "unix-excl" then some .logging
  else if name = utf8 "unix-dotfile" then some .marking
  else if name = utf8 "unix-none" then some .plain
  else if name = utf8 "memdb" then some .memory
  else none

namespace Address

/-- Turns `%` and two hexadecimal digits into the byte that they stand for. Any other `%` stands for
itself. -/
def unescape : Text → Text
  | 37 :: high :: low :: rest =>
      if Document.digitValue high < 16 ∧ Document.digitValue low < 16 then
        (Document.digitValue high * 16 + Document.digitValue low).toUInt8 :: unescape rest
      else 37 :: unescape (high :: low :: rest)
  | b :: rest => b :: unescape rest
  | [] => []

/-- A path, a key or a value: what it stands for, up to a NUL. -/
def component (t : Text) : Text := (unescape t).beforeNul

/-- The text before the first mark, and the text after it. -/
def cut (mark : UInt8) (t : Text) : Text × Text :=
  (t.takeWhile (· != mark), (t.dropWhile (· != mark)).tail)

/-- The keys and values between ampersands. A key alone has the empty value; a value without a key
is dropped. -/
def optionsOf (query : Text) : List (Text × Text) :=
  let pairs := (query.splitOn 38).map (cut 61)
  (pairs.map (fun (key, value) => (component key, component value))).filter (fun o => !o.1.isEmpty)

/-- What is left of the access after an option. -/
def restrict (access : Access) : Text × Text → Except EngineFault Access
  | (key, value) =>
      if key = utf8 "mode" then
        match Access.ofName? value with
        | none => .error (.unknown "access mode" value)
        | some wanted => if access.allows wanted then .ok wanted else .error (.accessTooWide value)
      else if key = utf8 "cache" ∧ value ≠ utf8 "shared" ∧ value ≠ utf8 "private" then
        .error (.unknown "cache mode" value)
      else .ok access

/-- The carrier that the last of the options that name one asks for. -/
def carrierOf (options : List (Text × Text)) : Except EngineFault Carrier :=
  match options.reverse.find? (fun o => o.1 = utf8 "vfs") with
  | none => .ok .logging
  | some (_, name) =>
      match Carrier.ofName? name with
      | some carrier => .ok carrier
      | none => .error (.unknown "vfs" name)

/-- The address after `file:`. Between two slashes and a third one stands the machine, which has to
be this one. -/
def ofBody (body : Text) : Except EngineFault Address := do
  let body ←
    match body with
    | 47 :: 47 :: rest =>
        let machine := rest.takeWhile (· != 47)
        if machine.isEmpty ∨ machine = utf8 "localhost" then .ok (rest.dropWhile (· != 47))
        else .error (.otherMachine machine)
    | body => .ok body
  let (path, query) := cut 63 (cut 35 body).1
  let options := optionsOf query
  let access ← options.foldlM restrict .create
  let carrier ← carrierOf options
  return { path := component path, access, carrier, options }

def ofText (t : Text) : Except EngineFault Address :=
  let t := t.beforeNul
  let scheme := utf8 "file:"
  if scheme.isPrefixOf t then ofBody (t.drop scheme.length) else .ok { path := t }

/-- The value of a key; the first one counts. -/
def option? (address : Address) (key : String) : Option Text :=
  (address.options.find? (fun o => o.1 = utf8 key)).map Prod.snd

/-- The number at the front of a text, hexadecimal after `0x`. -/
def leadingNumber? (t : Text) : Option Nat :=
  let digits (base : Nat) (t : Text) : Text := t.takeWhile (fun b => Document.digitValue b < base)
  let hexadecimal : Text :=
    match t with
    | 48 :: x :: rest => if lowerByte x = 120 then digits 16 rest else []
    | _ => []
  if hexadecimal.isEmpty then Document.ofDigits? 10 (digits 10 t)
  else Document.ofDigits? 16 hexadecimal

/-- A yes: a word for it, or a number of 31 bits whose last eight are not all zero. -/
def isYes (value : Text) : Bool :=
  match leadingNumber? value with
  | some n => n < 0x80000000 && n % 256 != 0
  | none => [utf8 "on", utf8 "yes", utf8 "true"].contains value.lower

def isSet (address : Address) (key : String) : Bool := (address.option? key).any isYes

/-- The table is asked to live and die with the connection. -/
def isUnnamed (address : Address) : Bool :=
  address.path.isEmpty || address.path == utf8 ":memory:" || address.access == .memory

/-- No file is behind the table. -/
def isPrivate (address : Address) : Bool := address.isUnnamed || address.carrier == .memory

/-- Nobody changes the file as long as it is open. -/
def isImmutable (address : Address) : Bool := address.isSet "immutable" && !address.isUnnamed

/-- The connection cannot write to what it opens. -/
def isFrozen (address : Address) : Bool := address.access == .read || address.isImmutable

/-- A locked file has a mark beside it. -/
def marksLock (address : Address) : Bool :=
  address.carrier == .marking && !address.isSet "nolock" && !address.isImmutable

/-- A file can be turned to keep a write-ahead log. -/
def canLog (address : Address) : Bool :=
  address.carrier == .logging && !address.isSet "nolock" && !address.isImmutable

/-- A file that keeps a write-ahead log can be read: with the log, or without it as nobody writes
one. -/
def readsLogged (address : Address) : Bool := address.canLog || address.isImmutable

end Address
end CodeAudit

/-
# Database URLs

A database URL gives the name of a file behind the scheme `sqlite:` or
`sqlite://`, percent-encoded, or `:memory:` for no file. Parameters may follow
behind `?`, set apart by `&`: `mode`, `cache`, `immutable` and `vfs`, of which
the last names the system of files that is asked for. A name that begins with
`file:` is a URI of its own, with a host, parameters and a fragment, unless a
system of files is asked for or the file is immutable. There the parameter
`modeof` may name a file of which the access rights are taken.

A database has to be new and writable, so what may only be read is refused. It
needs no file if its name is empty or `:memory:`, or if memory is asked for.

Key definitions: `DatabaseFile`, `DatabaseUrl`, `DatabaseUrl.Opening`,
`DatabaseUrl.ofText?`.
-/
import DocumentSql.Decimal.Digits
import DocumentSql.Text.Bytes
import DocumentSql.Text.Case

namespace DocumentSql

/-- The file of a database and the conditions under which it is used. -/
structure DatabaseFile where
  path : String
  /-- Whether the file is made if it is missing. -/
  mayCreate : Bool
  /-- A file whose access rights are taken, so that it has to be there. -/
  pattern : Option String
  /-- Whether a directory beside the file is its lock. -/
  hasLock : Bool
deriving DecidableEq

/-- Where a database is kept. -/
inductive DatabaseUrl where
  | memory
  | file (f : DatabaseFile)
deriving DecidableEq

namespace DatabaseUrl

/-- The characters without `marker` at their start, however often it stands there. -/
def dropAll (marker cs : List Char) : List Char :=
  if _h : marker ≠ [] ∧ marker.isPrefixOf cs then dropAll marker (cs.drop marker.length) else cs
termination_by cs.length
decreasing_by
  have hm : marker.length ≠ 0 := fun h0 => _h.1 (List.length_eq_zero_iff.mp h0)
  have hl : marker.length ≤ cs.length := (List.isPrefixOf_iff_prefix.mp _h.2).length_le
  simp only [List.length_drop]
  omega

/-- What may be done to a file. -/
inductive Rights where
  | nothing
  | read
  | write
  /-- The file may be written, and made if it is missing. -/
  | create
deriving DecidableEq

/-- How far rights go. -/
def Rights.rank : Rights → Nat
  | .nothing => 0
  | .read => 1
  | .write => 2
  | .create => 3

/-- How a database is asked for. -/
structure Opening where
  name : String
  rights : Rights
  inMemory : Bool
  immutable : Bool
  /-- The system of files, if one is named. -/
  system : Option String
  /-- The file of which the access rights are taken, if one is named. -/
  pattern : Option String
deriving DecidableEq

namespace Opening

/-- The opening of a database that is made if it is missing. -/
def ofName (name : String) : Opening := ⟨name, .create, false, false, none, none⟩

/-- The opening with a parameter of the URL, if the parameter is one that is known. -/
def withParameter? (o : Opening) (parameter : String × String) : Option Opening :=
  match parameter with
  | ("mode", "ro") => some { o with rights := .read }
  | ("mode", "rw") => some o
  | ("mode", "rwc") => some o
  | ("mode", "memory") => some { o with inMemory := true }
  | ("cache", "private") => some o
  | ("cache", "shared") => some o
  | ("immutable", "true") => some { o with immutable := true }
  | ("immutable", "1") => some { o with immutable := true }
  | ("immutable", "false") => some { o with immutable := false }
  | ("immutable", "0") => some { o with immutable := false }
  | ("vfs", system) => some { o with system := some system }
  | _ => none

/-- The opening with the rights of a mode, if they go no further than those it has. -/
def withMode? (o : Opening) (rights : Rights) (inMemory : Bool) : Option Opening :=
  if o.inMemory || rights.rank ≤ o.rights.rank then
    some { o with rights := rights, inMemory := inMemory }
  else none

/-- The opening with a parameter of a URI. Parameters that are not known change nothing. -/
def withOption? (o : Opening) (parameter : String × String) : Option Opening :=
  match parameter with
  | ("mode", "ro") => o.withMode? .read false
  | ("mode", "rw") => o.withMode? .write false
  | ("mode", "rwc") => o.withMode? .create false
  | ("mode", "memory") => o.withMode? .nothing true
  | ("mode", _) => none
  | ("cache", "private") => some o
  | ("cache", "shared") => some o
  | ("cache", _) => none
  | ("vfs", system) => some { o with system := some system }
  | _ => some o

end Opening

/-- The pieces of a query that are not empty, each cut at its first equals sign. -/
def pieces (query : String) : List (String × String) :=
  ((query.splitOn "&").filter (· != "")).map fun piece =>
    let cs := piece.toList
    (String.ofList (cs.takeWhile (· != '=')), String.ofList ((cs.dropWhile (· != '=')).drop 1))

/-- What stands in front of the first question mark, and what stands behind it. -/
def splitQuery (cs : List Char) : String × String :=
  (String.ofList (cs.takeWhile (· != '?')), String.ofList ((cs.dropWhile (· != '?')).drop 1))

/-- A name or value of a form, in which a plus sign stands for a space. -/
def formText (s : String) : String :=
  Text.ofAnyBytes (Text.percentDecode ((Text.bytes s).map fun b => if b = 0x2B then 0x20 else b))

/-- The parameters of a URL. -/
def parameters (query : String) : List (String × String) :=
  (pieces query).map fun p => (formText p.1, formText p.2)

/-- A part of a URI; a null character ends it. -/
def uriText (s : String) : String :=
  Text.ofAnyBytes ((Text.percentDecode (Text.bytes s)).takeWhile (· != 0))

/-- The parameters of a URI. -/
def options (query : String) : List (String × String) :=
  ((pieces query).map fun p => (uriText p.1, uriText p.2)).filter (·.1 != "")

/-- A URI without its host, which has to be this one. -/
def dropHost? : List Char → Option (List Char)
  | '/' :: '/' :: cs =>
    let host := String.ofList (cs.takeWhile (· != '/'))
    if host = "" ∨ host = "localhost" then some (cs.dropWhile (· != '/')) else none
  | cs => some cs

/-- The number at the start of a text, in hexadecimal digits behind `0x`. -/
def leadingNumber (cs : List Char) : Nat :=
  match cs with
  | '0' :: x :: rest =>
    let digits := (rest.takeWhile fun c => (Text.hexValue? c).isSome).filterMap Text.hexValue?
    if (x = 'x' || x = 'X') && !digits.isEmpty then digits.foldl (fun n d => 16 * n + d) 0
    else Decimal.value (cs.takeWhile Decimal.isDigit)
  | _ => Decimal.value (cs.takeWhile Decimal.isDigit)

/-- Whether the value of an option switches it on: one of three words, or a number at its start
that 256 does not divide. A number that 32 bits with a sign do not hold counts as zero. -/
def isOn (value : String) : Bool :=
  let cs := value.toList
  if cs.head?.any Decimal.isDigit then
    leadingNumber cs ≤ Int32.maxValue.toInt.toNat && leadingNumber cs % 256 != 0
  else ["on", "yes", "true"].contains (Text.lower value)

namespace Opening

/-- The opening that a URI asks for, given without `file:`. -/
def ofUri? (o : Opening) (uri : List Char) : Option Opening := do
  let uri ← dropHost? uri
  let (name, query) := splitQuery (uri.takeWhile (· != '#'))
  let options := options query
  let o ← options.foldlM withOption? { o with name := uriText name }
  return { o with
    immutable := (options.lookup "immutable").any isOn
    pattern := options.lookup "modeof" }

/-- The text up to a null character. -/
def untilNull (s : String) : String := String.ofList (s.toList.takeWhile (· != '\x00'))

/-- The opening in which the name is that of a file. -/
def resolve? (o : Opening) : Option Opening :=
  let cs := o.name.toList
  if o.immutable || o.system.isSome then
    some { o with name := untilNull o.name, system := o.system.map untilNull }
  else if cs.contains '\x00' then none
  else if "file:".toList.isPrefixOf cs then o.ofUri? (cs.drop 5)
  else some o

/-- The system in which a directory beside a file is its lock. -/
def lockSystem : String := "unix-dotfile"

/-- The systems that keep a file under the name that is given. -/
def fileSystems : List String := ["unix", "unix-none", "unix-excl", lockSystem]

/-- The system that keeps files in memory. -/
def memorySystem : String := "memdb"

/-- The database of an opening, if it can be new and written. -/
def database? (o : Opening) : Option DatabaseUrl :=
  if o.rights = .read then none
  else if !o.system.all fun s => fileSystems.contains s || s == memorySystem then none
  else if o.inMemory || o.name = "" || o.name = ":memory:" then some .memory
  else if o.immutable then none
  else if o.system = some memorySystem then some .memory
  else some (.file ⟨o.name, o.rights = .create, o.pattern, o.system = some lockSystem⟩)

end Opening

/-- The name of a URL, without parameters, as an opening. -/
def opening? (name : String) : Option Opening :=
  if name = ":memory:" then some { Opening.ofName "" with inMemory := true }
  else (Text.ofBytes? (Text.percentDecode (Text.bytes name))).map Opening.ofName

/-- The database that a URL names. -/
def ofText? (url : String) : Option DatabaseUrl := do
  let (name, query) := splitQuery
    (dropAll "sqlite:".toList (dropAll "sqlite://".toList url.toList))
  let o ← (parameters query).foldlM Opening.withParameter? (← opening? name)
  (← o.resolve?).database?

end DatabaseUrl
end DocumentSql

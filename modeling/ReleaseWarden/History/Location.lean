import ReleaseWarden.History.Handling
import ReleaseWarden.Text.Digit
import ReleaseWarden.Text.Switch

/-! Where a store is kept. A location names a file or, behind `file:`, an address with options; in
both, `%` and two hexadecimal digits stand for a byte. A question mark that is not so written is
refused. -/

set_option autoImplicit false

namespace ReleaseWarden

open Text Files

inductive Location
  | refused
  /-- A store that is made for one run and lost after it. -/
  | ephemeral
  /-- A store that each connection makes anew, so that the table is missing in all but the first. -/
  | scattered
  | file (path : Pathname) (handling : Handling)
  deriving DecidableEq, Repr

namespace Location

/-- Bytes of a text in which escapes stand for bytes; a percent sign that begins no escape stands
for itself. -/
def unescape : List Char → List UInt8
  | [] => []
  | '%' :: a :: b :: cs =>
    match hexDigit? a, hexDigit? b with
    | some high, some low => UInt8.ofNat (high * 16 + low) :: unescape cs
    | _, _ => '%'.toUInt8 :: unescape (a :: b :: cs)
  | c :: cs => (String.singleton c).toUTF8.toList ++ unescape cs

def dropLeading (leading : List Char) (cs : List Char) : List Char :=
  if leading.isEmpty then cs
  else if leading.isPrefixOf cs then dropLeading leading (cs.drop leading.length)
  else cs
termination_by cs.length
decreasing_by
  rename_i hne hpre
  have hle := List.IsPrefix.length_le (List.isPrefixOf_iff_prefix.mp hpre)
  have : leading ≠ [] := by simpa using hne
  have := List.length_pos_iff.mpr this
  simp only [List.length_drop]
  omega

def cut (c : Char) (cs : List Char) : List Char × List Char :=
  (cs.takeWhile (· != c), (cs.dropWhile (· != c)).drop 1)

def memoryPath : Pathname := .ofText ":memory:"

/-- An option of an address. Its value need not be a text. -/
structure Setting where
  name : String
  value : List UInt8 := []
  deriving DecidableEq, Repr

namespace Setting

/-- Bytes as a text with one character for each. -/
def wordOf (bytes : List UInt8) : String := String.ofList (bytes.map fun b => Char.ofNat b.toNat)

def word (o : Setting) : String := wordOf o.value

def find? (os : List Setting) (name : String) : Option Setting := os.find? fun o => o.name == name

def isOn (os : List Setting) (name : String) : Bool :=
  (find? os name).any fun o => Switch.isOn o.word

end Setting

structure Terms where
  handling : Handling := {}
  /-- The store is made for one run, whatever the path. -/
  isTemporary : Bool := false
  /-- The connections of a run use one store in memory. -/
  isShared : Bool := false
  deriving DecidableEq, Repr

namespace Terms

/-- Access may be narrowed but not widened, unless the store is kept in memory. -/
def takeMode (t : Terms) (word : String) : Option Terms :=
  if word = "memory" then
    some { t with handling := { t.handling with access := .create }, isTemporary := true }
  else
    (Vocabulary.ofWord? Access word).bind fun access =>
      if access.rank ≤ t.handling.access.rank then
        some { t with handling := { t.handling with access }, isTemporary := false }
      else none

def takeCache (t : Terms) (word : String) : Option Terms :=
  if word = "shared" then some { t with isShared := true }
  else if word = "private" then some { t with isShared := false }
  else none

/-- Takes up an option that has to be known; of several the last one holds. -/
def take (t : Terms) (o : Setting) : Option Terms :=
  if o.name = "mode" then t.takeMode o.word
  else if o.name = "cache" then t.takeCache o.word
  else some t

def fileSystem? (os : List Setting) : Option FileSystem :=
  match Setting.find? os.reverse "vfs" with
  | none => some .plain
  | some o => Vocabulary.ofWord? FileSystem o.word

def ofSettings? (os : List Setting) : Option Terms := do
  let fileSystem ← fileSystem? os
  let t ← os.foldlM take {}
  let handling : Handling :=
    { t.handling with
      fileSystem
      isFixed := Setting.isOn os "immutable"
      locks := !Setting.isOn os "nolock"
      model := (Setting.find? os "modeof").map fun o => ⟨o.value⟩
      isIndexFixed := Setting.isOn os "readonly_shm" }
  pure { t with handling }

/-- In the file system in memory, files whose paths start from its root are shared. -/
def isRooted (path : Pathname) : Bool :=
  match path.bytes with
  | b :: _ :: _ => [Pathname.slash, '\\'.toUInt8].contains b
  | _ => false

def inMemory (isShared : Bool) : Location := if isShared then .ephemeral else .scattered

/-- A store for one run has to be made, so that access to read is too little. -/
def locate (t : Terms) (path : Pathname) : Location :=
  if t.isTemporary ∨ path.bytes.isEmpty ∨ path = memoryPath then
    if t.handling.access = .read then .refused
    else inMemory (t.isShared && !path.bytes.isEmpty)
  else if t.handling.fileSystem = .memory then
    if t.handling.mayChange then inMemory (t.isShared || isRooted path) else .refused
  else .file path t.handling

end Terms

/-- A part of an address ends where a zero byte is written. -/
def addressPart (cs : List Char) : List UInt8 := (unescape cs).takeWhile (· != 0)

def addressSetting (cs : List Char) : Setting :=
  let (name, value) := cut '=' cs
  { name := Setting.wordOf (addressPart name), value := addressPart value }

/-- The path of an address ends at a question mark, behind which options stand. Nothing counts
behind a number sign. -/
def ofAddressPath (cs : List Char) : Location :=
  let (path, query) := cut '?' (cut '#' cs).1
  match Terms.ofSettings? ((query.splitOn '&').map addressSetting) with
  | none => .refused
  | some terms => terms.locate ⟨addressPart path⟩

/-- An address may name this computer as the one that has the file, but no other. -/
def ofAddress : List Char → Location
  | '/' :: '/' :: cs =>
    let host := (cut '/' cs).1
    if host.isEmpty ∨ host = "localhost".toList then ofAddressPath (cs.drop host.length)
    else .refused
  | cs => ofAddressPath cs

def ofPath (path : String) : Location :=
  match path.toList with
  | 'f' :: 'i' :: 'l' :: 'e' :: ':' :: cs => ofAddress cs
  | _ => Terms.locate {} (.ofText path)

def scheme : List Char := "sqlite:".toList

/-- A location is read behind its scheme, which may be repeated. -/
def ofText (s : String) : Location :=
  let cs := dropLeading scheme (dropLeading (scheme ++ ['/', '/']) (scheme ++ s.toList))
  if cs.contains '?' then .refused
  else if cs = ":memory:".toList then .ephemeral
  else
    match (Pathname.mk (unescape cs)).text? with
    | none => .refused
    | some path => if path.contains '\x00' then .refused else ofPath path

end Location

end ReleaseWarden

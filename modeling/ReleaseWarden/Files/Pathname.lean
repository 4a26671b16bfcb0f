/-! Paths of files. A path is a list of bytes in which slashes part names; they need not spell a
text. -/

set_option autoImplicit false

namespace ReleaseWarden.Files

abbrev Name := List UInt8

namespace Name

def ofText (s : String) : Name := s.toUTF8.toList

def here : Name := [46]

def above : Name := [46, 46]

def isIdle (n : Name) : Bool := n.isEmpty || n == here

end Name

structure Pathname where
  bytes : List UInt8
  deriving DecidableEq, Repr, Inhabited

namespace Pathname

def slash : UInt8 := 47

def ofText (s : String) : Pathname := ⟨s.toUTF8.toList⟩

def text? (p : Pathname) : Option String := String.fromUTF8? (ByteArray.mk p.bytes.toArray)

def isAbsolute (p : Pathname) : Bool := p.bytes.head? == some slash

def names (p : Pathname) : List Name := p.bytes.splitOn slash

def isRoot (p : Pathname) : Bool :=
  p.isAbsolute && p.names.all fun name => name.isIdle || name == Name.above

def ofNames (isAbsolute : Bool) (names : List Name) : Pathname :=
  ⟨(if isAbsolute then [] else Name.here) ++ names.flatMap (slash :: ·)⟩

end Pathname

end ReleaseWarden.Files

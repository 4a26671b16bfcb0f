import ReleaseWarden.Profile.Basic

/-! The stock of well-known audio tiers, from the least preferred to the most preferred one. -/

set_option autoImplicit false

namespace ReleaseWarden.Catalog

def names : List String :=
  ["Unknown", "MP3-8", "MP3-96", "MP3-128", "MP3-160", "MP3-192", "MP3-VBR-V2", "MP3-256",
    "MP3-VBR-V0", "MP3-320", "AAC-256", "AAC-320", "ALAC", "FLAC", "FLAC 24bit", "WAV"]

def qualities : List Quality :=
  names.zipIdx.map fun (name, i) => ⟨Int32.ofNat i, name⟩

def find? (id : Int32) : Option Quality := qualities.find? fun q => q.id == id

def unknown : Quality := ⟨0, "Unknown"⟩

def get (id : Int32) : Quality := (find? id).getD unknown

def profile (cutoff : Int32) : Profile where
  id := 1
  name := "Any"
  upgradeAllowed := true
  cutoff := cutoff
  items := qualities.map fun q => ⟨q, true⟩

end ReleaseWarden.Catalog

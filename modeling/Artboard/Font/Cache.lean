/-!
# The font cache

Stylesheets that were fetched before, each under its address.  The cache is opened at its first use, and an
attempt that fails is made again at the next; a cache that cannot be used is as good as none.
-/

namespace Artboard

/-- A stylesheet in the cache; a document written by others may lack fields. -/
structure FontDocument where
  url : String
  family : Option String
  css : Option String
  deriving DecidableEq, Repr

/-- Which uses of the cache fail. -/
structure CacheFaults where
  opening : Bool := false
  finding : Bool := false
  storing : Bool := false
  deriving DecidableEq, Repr

/-- The state of a session that looks up fonts. -/
structure FontSession where
  documents : List FontDocument := []
  isOpen : Bool := false
  /-- how often the cache was connected to -/
  connects : Nat := 0
  /-- the addresses fetched, in order -/
  requested : List String := []
  deriving DecidableEq, Repr

namespace FontSession

/-! ## 1. Documents -/

/-- The documents with one put under its address. -/
def putDocument (doc : FontDocument) : List FontDocument → List FontDocument
  | [] => [doc]
  | d :: rest => if d.url = doc.url then doc :: rest else d :: putDocument doc rest

/-- The document under an address. -/
def find? (documents : List FontDocument) (url : String) : Option FontDocument :=
  documents.find? fun d => d.url == url

/-! ## 2. Uses of the cache -/

/-- The session after an attempt to open the cache, if it was not open. -/
def opened (faults : CacheFaults) (s : FontSession) : FontSession :=
  if s.isOpen then s else { s with connects := s.connects + 1, isOpen := !faults.opening }

/-- The stylesheet that the cache has for an address. -/
def cached? (faults : CacheFaults) (url : String) (s : FontSession) : Option String × FontSession :=
  let s := s.opened faults
  if s.isOpen && !faults.finding then ((find? s.documents url).bind FontDocument.css, s) else (none, s)

/-- The session after an attempt to put a stylesheet into the cache. -/
def save (faults : CacheFaults) (doc : FontDocument) (s : FontSession) : FontSession :=
  let s := s.opened faults
  if s.isOpen && !faults.storing then { s with documents := putDocument doc s.documents } else s

end FontSession

end Artboard

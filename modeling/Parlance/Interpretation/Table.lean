import Parlance.Grammar.Filler
import Parlance.Inflection
import Parlance.Interpretation.Workspace

/-! Which table a request is about. The words behind prepositions come first, then the first
word behind the verb; each is tried as it stands, in the plural and in the singular. Failing
these any word that names a table will do, and failing that the first candidate is taken for
a table that the schema does not know. -/

namespace Parlance.Interpretation

open Text (Span)
open Grammar (isFiller nameWord tablePreposition)

structure Mention where
  word : List Char
  span : Span

def prepositionMentions (cs : List Char) : List Mention :=
  (tablePreposition.hits cs).filterMap fun h =>
    match h.text? 1 with
    | some w => if isFiller w then none else some ⟨w, h.span⟩
    | none => none

def wordMentions (cs : List Char) : List Mention :=
  ((nameWord.hits cs).filter fun h => !isFiller h.text).map fun h => ⟨h.text, h.span⟩

/-- The first word behind the verb, if there is a verb. -/
def verbMention (verbEnd : Nat) (cs : List Char) : List Mention :=
  if verbEnd = 0 then []
  else ((wordMentions (Text.dropTo verbEnd cs)).take 1).map fun m => ⟨m.word, m.span.shift verbEnd⟩

def lookupTable? (s : Schema) (w : List Char) : Option String :=
  (Inflection.candidates (Text.lower w)).findSome? fun form => (s.find? form).map (·.name)

structure TableMatch where
  name : String
  known : Bool
  span : Span

def knownMatch? (s : Schema) (ms : List Mention) : Option TableMatch :=
  ms.findSome? fun m => (lookupTable? s m.word).map fun name => ⟨name, true, m.span⟩

def unknownMatch (m : Mention) : TableMatch := ⟨String.ofList (Text.lower m.word), false, m.span⟩

def tableMentions (verbEnd : Nat) (cs : List Char) : List Mention :=
  prepositionMentions cs ++ verbMention verbEnd cs

def resolveTable? (ws : Workspace) (verbEnd : Nat) (s : Schema) : Option TableMatch :=
  let mentions := tableMentions verbEnd ws.text
  match knownMatch? s mentions with
  | some m => some m
  | none =>
    match knownMatch? s (wordMentions ws.text) with
    | some m => some m
    | none => mentions.head?.map unknownMatch

end Parlance.Interpretation

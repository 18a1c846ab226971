import Ascription.Source.Span

/-!
# Diagnostic — errors as they are shown

A diagnostic is a message with labels that point into a text.  The phases that find errors know
nothing of it.  Labels at synthetic spans are dropped, since they point at nothing.
-/

namespace Ascription

inductive Severity
  | error
  | warning
  | note
  deriving DecidableEq

def Severity.text : Severity → String
  | error => "error"
  | warning => "warning"
  | note => "note"

/-- Whether a label is where the error is, or a related place. -/
inductive Role
  | primary
  | secondary
  deriving DecidableEq

def Role.text : Role → String
  | primary => "primary"
  | secondary => "secondary"

/-- A place in a text, and what to say about it. -/
structure Label where
  span : Span
  role : Role
  message : Option String
  deriving DecidableEq

/-- A message about a text. -/
structure Diagnostic where
  severity : Severity
  code : Option String
  message : String
  labels : List Label
  notes : List String
  help : Option String

namespace Diagnostic

/-- An error without code, labels, notes and advice. -/
def error (message : String) : Diagnostic := ⟨.error, none, message, [], [], none⟩

def withCode (d : Diagnostic) (code : String) : Diagnostic := { d with code := some code }

/-- Adding a label, unless it points at no text. -/
def withLabel (d : Diagnostic) (span : Span) (role : Role) (message : String) : Diagnostic :=
  if span.isSynthetic then d else { d with labels := d.labels ++ [⟨span, role, some message⟩] }

def withPrimary (d : Diagnostic) (span : Span) (message : String) : Diagnostic :=
  d.withLabel span .primary message

def withSecondary (d : Diagnostic) (span : Span) (message : String) : Diagnostic :=
  d.withLabel span .secondary message

def withNote (d : Diagnostic) (note : String) : Diagnostic := { d with notes := d.notes ++ [note] }

def withHelp (d : Diagnostic) (help : String) : Diagnostic := { d with help := some help }

/-- Adding advice, where there is any. -/
def withHelp? (d : Diagnostic) (help : Option String) : Diagnostic :=
  match help with
  | some h => d.withHelp h
  | none => d

/-- **Where the error is**: at the first primary label, or else at the first label. -/
def primarySpan (d : Diagnostic) : Option Span :=
  ((d.labels.find? fun l => l.role == .primary).or d.labels.head?).map Label.span

end Diagnostic

end Ascription

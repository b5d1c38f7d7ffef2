import NodeKeeper.Config.Reading

/-!
# Sections

A section is a record of settings. It is read as a whole: every setting is looked at, and the
problems of all of them are told, in the order in which the section declares them.

## Main definitions

* `Checked` — a result, or all problems that were found.
* `Section.setting`, `Section.part` — one setting, and a section inside a section.
* `Section.fields` — the settings of a document.
-/

namespace NodeKeeper.Config

/-- A result, or all problems that were found. -/
def Checked (α : Type) : Type := Except (List Problem) α

namespace Checked

variable {α β : Type}

/-- Two results together; the problems of both count, those of the first in front. -/
def apply (f : Checked (α → β)) (x : Checked α) : Checked β :=
  match f, x with
  | .ok g, .ok a => .ok (g a)
  | .error p, .ok _ => .error p
  | .ok _, .error q => .error q
  | .error p, .error q => .error (p ++ q)

instance : Functor Checked where
  map f x := apply (.ok f) x

instance : Seq Checked where
  seq f x := apply f (x ())

/-- The problems are those of a section inside another one. -/
def within (name : String) (x : Checked α) : Checked α :=
  match x with
  | .ok a => .ok a
  | .error ps => .error (ps.map (Problem.within name))

/-- The problems that were found. -/
def problems (x : Checked α) : List Problem :=
  match x with
  | .ok _ => []
  | .error ps => ps

end Checked

namespace Section

variable {α : Type}

/-- The settings of a section, which has to be a record. -/
def fields (title : String) : Value → Checked (List (String × Value))
  | .record fs => .ok fs
  | _ => .error [⟨[], .notSection title⟩]

/-- One setting; a missing one has its default, or is a problem if there is none. -/
def setting (fs : List (String × Value)) (name : String) (fallback : Option α)
    (read : Setting.Reading α) : Checked α :=
  match fs.lookup name with
  | none =>
    match fallback with
    | some a => .ok a
    | none => .error [⟨[name], .missing⟩]
  | some v =>
    match read v with
    | .ok a => .ok a
    | .error flaw => .error [⟨[name], flaw⟩]

/-- A section inside a section; a missing one has its default. -/
def part (fs : List (String × Value)) (name : String) (fallback : α) (read : Value → Checked α) :
    Checked α :=
  match fs.lookup name with
  | none => .ok fallback
  | some v => (read v).within name

end Section

end NodeKeeper.Config

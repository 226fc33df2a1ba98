import ConversionCoverage.Text.Blank
import ConversionCoverage.Text.LetterCase

/-!
# Console markup

Text for a console carries tags in brackets, and a tag with a slash ends the style that it names.
An odd number of backslashes before a bracket makes it an ordinary one. A closing tag must have a
style to close. Names of several words are compared as they are written, and what a handler is
called with is not evaluated.
-/

namespace ConversionCoverage.Markup

/-- Whether a code point may come first in a tag. -/
def opensTag : CodePoint → Bool
  | .char c => c.isLower || c = '#' || c = '/' || c = '@'
  | .half _ => false

/-- The tag in the text after an opening bracket, up to the closing one. -/
def tag? : Text → Option Text
  | [] => none
  | c :: rest =>
    let body := rest.takeWhile fun d => d ≠ .char '[' && d ≠ .char ']'
    if opensTag c && (rest.drop body.length).head? = some (.char ']') then some (c :: body)
    else none

/-- The text after `slashes` backslashes, with backslashes before tags doubled and one more
added. -/
def escapeTags (slashes : Nat) : Text → Text
  | [] => []
  | c :: rest =>
    if c = '\\' then c :: escapeTags (slashes + 1) rest
    else if c = '[' && (tag? rest).isSome then
      Text.repeated "\\" (slashes + 1) ++ c :: escapeTags 0 rest
    else c :: escapeTags 0 rest

/-- The markup that shows a text as it is. A single backslash at the end is doubled, so that it
does not escape what follows. -/
def escape (t : Text) : Text :=
  let escaped := escapeTags 0 t
  match escaped.reverse with
  | .char '\\' :: .char '\\' :: _ => escaped
  | .char '\\' :: _ => escaped ++ "\\"
  | _ => escaped

/-- The tags of a text and their positions; `position` code points and `slashes` backslashes come
before it. -/
def tagsFrom (position slashes : Nat) : Text → List (Nat × Text)
  | [] => []
  | c :: rest =>
    if c = '\\' then tagsFrom (position + 1) (slashes + 1) rest
    else
      let later := tagsFrom (position + 1) 0 rest
      if c = '[' && slashes % 2 = 0 then
        match tag? rest with
        | some body => (position, body) :: later
        | none => later
      else later

def tags (t : Text) : List (Nat × Text) := tagsFrom 0 0 t

structure Fault where
  position : Nat
  tag : Text
  deriving DecidableEq, Repr

/-- Short names of styles. -/
def shortNames : List (String × String) := [
  ("b", "bold"), ("d", "dim"), ("i", "italic"), ("u", "underline"), ("r", "reverse"),
  ("c", "conceal"), ("s", "strike"), ("uu", "underline2"), ("o", "overline")]

/-- The name under which a style is opened and closed. -/
def styleName (t : Text) : Text :=
  let name := t.strip.toSmall
  match shortNames.find? fun (short, _) => name = short with
  | some (_, long) => long
  | none => name

/-- The part of a tag that names its style, without parameters. -/
def tagName (body : Text) : Text := body.takeWhile (· ≠ .char '=')

/-- The style that a closing tag names; nothing for a tag that closes the latest one. -/
def closes? (body : Text) : Option Text :=
  match tagName body with
  | .char '/' :: name => some (Text.strip name)
  | _ => none

def Fault.message (fault : Fault) : Text :=
  let reason : Text :=
    if closes? fault.tag = some [] then "has nothing to close" else "doesn't match any open tag"
  let shown : Text := if closes? fault.tag = some [] then "/" else fault.tag
  "closing tag '[" ++ shown ++ "]' at position " ++ Text.ofNat fault.position ++ " " ++ reason

/-- The first tag that closes nothing, while the styles of `opened` are open, the latest first. -/
def firstFault (opened : List Text) : List (Nat × Text) → Option Fault
  | [] => none
  | (position, body) :: rest =>
    match closes? body with
    | none => firstFault (styleName (tagName body) :: opened) rest
    | some [] =>
      match opened with
      | [] => some ⟨position, body⟩
      | _ :: others => firstFault others rest
    | some name =>
      if opened.contains (styleName name) then firstFault (opened.erase (styleName name)) rest
      else some ⟨position, body⟩

def check (t : Text) : Except Fault Unit :=
  match firstFault [] (tags t) with
  | none => .ok ()
  | some fault => .error fault

/-- The text that markup shows, styles aside; `slashes` backslashes come before it, and `skip` code
points of it belong to a tag. -/
def plainFrom : (skip slashes : Nat) → Text → Text
  | _, slashes, [] => Text.repeated "\\" slashes
  | skip + 1, _, _ :: rest => plainFrom skip 0 rest
  | 0, slashes, c :: rest =>
    if c = '\\' then plainFrom 0 (slashes + 1) rest
    else if c = '[' then
      match tag? rest with
      | some body =>
        Text.repeated "\\" (slashes / 2) ++
          (if slashes % 2 = 0 then plainFrom (body.length + 1) 0 rest
            else c :: plainFrom 0 0 rest)
      | none => Text.repeated "\\" (slashes - 1) ++ c :: plainFrom 0 0 rest
    else Text.repeated "\\" slashes ++ c :: plainFrom 0 0 rest

/-- The text that markup shows, styles aside. -/
def plain (t : Text) : Text := plainFrom 0 0 t

end ConversionCoverage.Markup

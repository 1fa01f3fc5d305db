import Scriptlet.Template.Value

/-!
# Filling templates

A template is a text with directives: a percent sign, flags, width and
precision, and a verb that says how the next value is written.  A number in
brackets chooses a value by its position, and a star takes the width or the
precision from a value.  A missing value, a superfluous one and a number that
chooses none are all reported inside the text, so every template yields a
text.
-/

namespace Scriptlet.Template

structure Reading where
  options : Options := {}
  rest : Bytes
  next : Nat
  reordered : Bool
  indexed : Bool := false
  sound : Bool := true
  reports : Bytes := []

def largest : Nat := 1000000

def number : Option Nat → Bytes → Option Nat × Bytes
  | n, [] => (n, [])
  | n, b :: rest =>
    if Bytes.isDigit b then
      if n.any (largest < ·) then (none, [])
      else number (some (10 * n.getD 0 + Bytes.digitValue b)) rest
    else (n, b :: rest)

def bracketed? (inner : Bytes) : Option Nat :=
  match number none inner with
  | (n, []) => n
  | _ => none

def measure? : Option Datum → Option Int
  | some (.int i) => if i.natAbs ≤ largest then some i else none
  | _ => none

namespace Reading

def flagsFrom (o : Options) : Bytes → Options × Bytes
  | [] => (o, [])
  | b :: rest =>
    match Char.ofUInt8 b with
    | '#' => flagsFrom { o with sharp := true } rest
    | '0' => flagsFrom { o with zero := true } rest
    | '+' => flagsFrom { o with plus := true } rest
    | '-' => flagsFrom { o with left := true } rest
    | ' ' => flagsFrom { o with blank := true } rest
    | _ => (o, b :: rest)

def flags (r : Reading) : Reading :=
  let (o, rest) := flagsFrom r.options r.rest
  { r with options := o, rest := rest }

def position (count : Nat) (r : Reading) : Reading :=
  match r.rest with
  | 0x5B :: rest =>
    let r := { r with reordered := true }
    match Bytes.cut? 0x5D rest with
    | none => { r with rest := rest, sound := false, indexed := false }
    | some (inner, after) =>
      if inner.isEmpty && after.isEmpty then
        { r with rest := rest, sound := false, indexed := false }
      else
        match bracketed? inner with
        | none => { r with rest := after, sound := false, indexed := false }
        | some n =>
          if 1 ≤ n && n ≤ count then { r with rest := after, next := n - 1, indexed := true }
          else { r with rest := after, sound := false, indexed := true }
  | _ => { r with indexed := false }

def width (values : Array Datum) (r : Reading) : Reading :=
  match r.rest with
  | 0x2A :: rest =>
    let value := values[r.next]?
    let r := { r with rest := rest, indexed := false }
    let r := if value.isSome then { r with next := r.next + 1 } else r
    match measure? value with
    | none => { r with reports := r.reports ++ utf8 "%!(BADWIDTH)" }
    | some i =>
      let o := { r.options with width := some i.natAbs }
      { r with options := if i < 0 then { o with left := true, zero := false } else o }
  | s =>
    let (n, rest) := number none s
    { r with
      rest := rest
      options := { r.options with width := n }
      sound := r.sound && !(r.indexed && n.isSome) }

def precision (values : Array Datum) (r : Reading) : Reading :=
  match r.rest with
  | 0x2E :: rest =>
    let r := { r with rest := rest, sound := r.sound && !r.indexed }.position values.size
    match r.rest with
    | 0x2A :: rest =>
      let value := values[r.next]?
      let r := { r with rest := rest, indexed := false }
      let r := if value.isSome then { r with next := r.next + 1 } else r
      match measure? value with
      | some (.ofNat n) => { r with options := { r.options with precision := some n } }
      | _ => { r with reports := r.reports ++ utf8 "%!(BADPREC)" }
    | s =>
      let (n, rest) := number none s
      { r with rest := rest, options := { r.options with precision := some (n.getD 0) } }
  | _ => r

def complete (values : Array Datum) (r : Reading) : Reading :=
  let r := (((r.flags).position values.size).width values).precision values
  if r.indexed then r else r.position values.size

end Reading

def extra (values : List Datum) : Bytes :=
  let described (value : Datum) : Bytes := match value with
    | .nil => utf8 "<nil>"
    | _ => utf8 (typeName value) ++ utf8 "=" ++ write {} 'v' false value
  if values.isEmpty then []
  else utf8 "%!(EXTRA " ++ Bytes.join (utf8 ", ") (values.map described) ++ utf8 ")"

def closing (values : Array Datum) (next : Nat) (reordered : Bool) : Bytes :=
  if reordered then [] else extra (values.toList.drop next)

def fillFrom (values : Array Datum) :
    (fuel : Nat) → (next : Nat) → (reordered : Bool) → (template : Bytes) → Bytes
  | 0, _, _, template => template
  | fuel + 1, next, reordered, template =>
    let text := template.takeWhile (· != 0x25)
    match template.dropWhile (· != 0x25) with
    | [] => text ++ closing values next reordered
    | _ :: rest =>
      let r := Reading.complete values { rest := rest, next := next, reordered := reordered }
      let text := text ++ r.reports
      match r.rest with
      | [] => text ++ utf8 "%!(NOVERB)" ++ closing values r.next r.reordered
      | b :: rest =>
        let rune := Utf8.first b rest
        let verb := Char.ofNat rune.code
        let rest := rest.drop (rune.bytes.length - 1)
        if verb == '%' then
          text ++ utf8 "%" ++ fillFrom values fuel r.next r.reordered rest
        else if !r.sound then
          text ++ refusal verb (utf8 "BADINDEX")
            ++ fillFrom values fuel r.next r.reordered rest
        else
          match values[r.next]? with
          | none =>
            text ++ refusal verb (utf8 "MISSING")
              ++ fillFrom values fuel r.next r.reordered rest
          | some value =>
            text ++ directive r.options verb value
              ++ fillFrom values fuel (r.next + 1) r.reordered rest

def fill (template : Bytes) (values : List Datum) : Bytes :=
  fillFrom values.toArray (template.length + 1) 0 false template

end Scriptlet.Template

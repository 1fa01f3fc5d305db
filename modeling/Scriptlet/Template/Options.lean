import Scriptlet.Text.Quoted

/-!
# The options of a directive

What stands between the percent sign of a directive and its verb: flags, the
width to fill up to, and the precision, whose meaning is the verb's.
-/

namespace Scriptlet.Template

structure Options where
  left : Bool := false
  zero : Bool := false
  /-- Write a sign before positive numbers, or ASCII only between quotes. -/
  plus : Bool := false
  /-- Leave a blank for the sign of positive numbers, or between bytes. -/
  blank : Bool := false
  sharp : Bool := false
  denoting : Bool := false
  named : Bool := false
  width : Option Nat := none
  precision : Option Nat := none
  deriving DecidableEq, Repr, Inhabited

namespace Options

def fillsZeros (o : Options) : Bool := o.zero && !o.left

def pad (o : Options) (s : Bytes) : Bytes :=
  let missing := o.width.getD 0 - (Utf8.runes s).length
  if o.left then s ++ Bytes.spaces missing
  else if o.zero then List.replicate missing 0x30 ++ s
  else Bytes.spaces missing ++ s

def padBlank (o : Options) (s : Bytes) : Bytes := { o with zero := false }.pad s

def sign (o : Options) (negative : Bool) : Bytes :=
  if negative then utf8 "-"
  else if o.plus then utf8 "+"
  else if o.blank then utf8 " "
  else []

def truncate (o : Options) (s : Bytes) : Bytes :=
  match o.precision with
  | some n => ((Utf8.runes s).take n).flatMap Rune.bytes
  | none => s

def truncateBytes (o : Options) (s : Bytes) : Bytes :=
  match o.precision with
  | some n => s.take n
  | none => s

end Options

def capitals (s : Bytes) : Bytes := s.map fun b => if Bytes.isLower b then b - 0x20 else b

/-! ## Texts -/

def hexText (o : Options) (s : Bytes) : Bytes :=
  let mark : Bytes := if o.sharp then utf8 "0x" else []
  let pairs := s.map fun b => Bytes.hex 2 b.toNat
  if s.isEmpty then []
  else if o.blank then Bytes.join [space] (pairs.map fun pair => mark ++ pair)
  else mark ++ pairs.flatten

def quotedText (o : Options) (s : Bytes) : Bytes :=
  if o.sharp && Quoted.fitsBackquotes s then
    Quoted.backquote :: s ++ [Quoted.backquote]
  else if o.plus then Quoted.quotedAscii s
  else Quoted.quoted s

def text? (o : Options) (verb : Char) (s : Bytes) : Option Bytes :=
  match verb with
  | 'v' => some (o.pad (if o.denoting then quotedText o (o.truncate s) else o.truncate s))
  | 's' => some (o.pad (o.truncate s))
  | 'q' => some (o.pad (quotedText o (o.truncate s)))
  | 'x' => some (o.pad (hexText o (o.truncateBytes s)))
  | 'X' => some (o.pad (capitals (hexText o (o.truncateBytes s))))
  | _ => none

end Scriptlet.Template

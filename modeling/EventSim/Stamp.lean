import EventSim.Facade
import EventSim.Number.Decimal

/-! # Stamps

A stamp tells the virtual time and the context of the present, each written by the printer that is
installed for it, with a blank between them. Without printers it is empty. A printer that asks for
the present asks the facade, so printing can build a kernel.

A time counts nanoseconds; in seconds it is a binary64 number, the count rounded to binary64 and
then divided by a thousand million, rounded again.
-/

namespace EventSim

/-- The time in seconds. -/
def Time.seconds (t : Time) : Binary64 := (Binary64.ofInt t.ticks).div (Binary64.ofInt 1000000000)

/-- A plus sign, the seconds with nine places and the unit. -/
def Time.stamp (t : Time) : String := String.ofList ('+' :: t.seconds.fixedText 9 ++ ['s'])

namespace World

/-- The text of a context: its number, or `-1` outside of any. -/
def contextText (c : Context) : String := if c = noContext then "-1" else toString c.toNat

/-- What a printer writes for a part of a stamp; `none` if it fails. -/
def printPart (w : World) (part : StampPart) : Printer → Except Panic (Option String × World)
  | .standard =>
    match part with
    | .time =>
      match w.nowOf .facade with
      | .error p => .error p
      | .ok (t, w) => .ok (some t.stamp, w)
    | .node =>
      match w.contextOf .facade with
      | .error p => .error p
      | .ok (c, w) => .ok (some (contextText c), w)
  | .fixed =>
    match part with
    | .time => .ok (some "T", w)
    | .node => .ok (some "N", w)
  | .failing => .ok (none, w)

/-- The text that a part adds to `before`, or the text at which it failed. -/
def printAfter (w : World) (before : String) (part : StampPart) (printer : Option Printer) :
    Except Panic (Except String String × World) :=
  match printer with
  | none => .ok (.ok before, w)
  | some printer =>
    match w.printPart part printer with
    | .error p => .error p
    | .ok (some text, w) => .ok (.ok (before ++ text), w)
    | .ok (none, w) => .ok (.error before, w)

/-- The stamp of the present. -/
def stamp (w : World) : Except Panic Reply × World :=
  let printers := w.printers
  match w.printAfter "" .time printers.time with
  | .error p => (.error p, w)
  | .ok (.error text, w) => (.ok (.cutShort text), w)
  | .ok (.ok text, w) =>
    let text := if printers.time.isSome && printers.node.isSome then text ++ " " else text
    match w.printAfter text .node printers.node with
    | .error p => (.error p, w)
    | .ok (.error text, w) => (.ok (.cutShort text), w)
    | .ok (.ok text, w) => (.ok (.text text), w)

/-- A call on the printers. -/
def print (w : World) : PrinterCall → Except Panic Reply × World
  | .install .time printer =>
    (.ok .done, { w with printers := { w.printers with time := printer } })
  | .install .node printer =>
    (.ok .done, { w with printers := { w.printers with node := printer } })
  | .installed => (.ok (.installed w.printers.time.isSome w.printers.node.isSome), w)
  | .stamp => w.stamp
  | .print part =>
    match w.printPart part .standard with
    | .error p => (.error p, w)
    | .ok (text, w) => (.ok (.text (text.getD "")), w)

end World

end EventSim

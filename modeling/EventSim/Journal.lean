import EventSim.Command

/-! # The journal as it is told

Destroying a kernel, tearing down and running a scenario give up many actions at once, in an order
that belongs to the scheduler and to nobody else. So the releases at the end of such a call are told
in the order of their tags: `Journal.settled` sorts them, back to the last entry of another kind or
to the start of the call, whichever comes later. The marks that say where calls of actions started
are not told.
-/

namespace EventSim.Journal

/-- The entry is about an action that was given up. -/
def isRelease : Entry → Bool
  | .released _ => true
  | _ => false

/-- The entry marks the start of a call. -/
def isMark : Entry → Bool
  | .began _ => true
  | _ => false

/-- The tag of a release. -/
def releaseTag : Entry → String
  | .released tag => tag
  | _ => ""

/-- Releases in the order of their tags. -/
def sortReleases (l : List Entry) : List Entry :=
  l.mergeSort fun a b => !(decide (releaseTag b < releaseTag a))

/-- The entries, newest first, with the newest releases in the order of their tags. -/
def settleNewest (newestFirst : List Entry) : List Entry :=
  (sortReleases (newestFirst.takeWhile isRelease).reverse).reverse ++
    newestFirst.dropWhile isRelease

/-- The told entries, newest first, with one more. -/
def tell (newestFirst : List Entry) (e : Entry) : List Entry :=
  match e with
  | .did command reply =>
    if Command.settlingNames.contains command then
      .did command reply :: (settleNewest newestFirst).eraseP isMark
    else .did command reply :: newestFirst
  | e => e :: newestFirst

/-- The entries of a call as they are told, given newest first and told oldest first; `settles` if
the call itself may give up many actions. -/
def settled (settles : Bool) (newestFirst : List Entry) : List Entry :=
  let told := newestFirst.reverse.foldl tell []
  (if settles then settleNewest told else told).reverse.filter fun e => !isMark e

end EventSim.Journal

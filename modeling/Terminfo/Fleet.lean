import Terminfo.Session.Query

set_option autoImplicit false

namespace Terminfo

/-- Any number of sessions that are known by names, side by side in one process. -/
structure Fleet where
  host : Host
  board : Switchboard
  /-- The last one made comes first and hides older ones of its name. -/
  sessions : List (String × Session) := []

/-- What can happen to a fleet during one holding of the switchboard. -/
inductive Move
  | create (name : String)
  | establish (name : String) (term : Option String) (fd : Descriptor)
  /-- Nothing happens where the name stands for no session. -/
  | init (name : String) (term : Option String) (fd : Descriptor)
  | ask (name : String) (query : Query)
  | retire (name : String)
  /-- Gives up the session that the name stood for before the last one. -/
  | retireHidden (name : String)
  | setEnv (name : String) (value : Option Bytes)
  | resize (fd : Descriptor) (rows cols : UInt16)
  deriving DecidableEq, Repr

namespace Fleet

def start (host : Host) (allocator : Allocator) : Fleet where
  host := host
  board := .start allocator

variable {σ : Type}
variable (f : Fleet)

def session? (name : String) : Option Session := f.sessions.lookup name

/-- A name that is not in use stands for a session that is not initialized. -/
def session (name : String) : Session := (f.session? name).getD {}

def replace (name : String) (s : σ) : List (String × σ) → List (String × σ)
  | [] => []
  | (other, t) :: rest =>
    if other = name then (name, s) :: rest else (other, t) :: replace name s rest

def without (name : String) : List (String × σ) → List (String × σ)
  | [] => []
  | (other, t) :: rest => if other = name then rest else (other, t) :: without name rest

def hidden? (name : String) : List (String × σ) → Option σ
  | [] => none
  | (other, _) :: rest => if other = name then rest.lookup name else hidden? name rest

def withoutHidden (name : String) : List (String × σ) → List (String × σ)
  | [] => []
  | (other, t) :: rest =>
    if other = name then (other, t) :: without name rest else (other, t) :: withoutHidden name rest

def move : Move → Answer × Fleet
  | .create name => (.ok .unit, { f with sessions := (name, {}) :: f.sessions })
  | .establish name term fd =>
    match (Session.establish f.host term fd).run f.board with
    | (.error e, board) => (.error e, { f with board })
    | (.ok s, board) =>
      (.ok (.integer s.diagnostic), { f with board, sessions := (name, s) :: f.sessions })
  | .init name term fd =>
    match f.session? name with
    | none => (.ok .unit, f)
    | some s =>
      let ((result, s), board) := (s.init f.host term fd).run f.board
      (result.map .integer, { f with board, sessions := replace name s f.sessions })
  | .ask name query =>
    let (answer, board) := ((f.session name).ask query).run f.board
    (answer, { f with board })
  | .retire name =>
    let ((), board) := (f.session name).retire.run f.board
    (.ok .unit, { f with board, sessions := without name f.sessions })
  | .retireHidden name =>
    let ((), board) := ((hidden? name f.sessions).getD {}).retire.run f.board
    (.ok .unit, { f with board, sessions := withoutHidden name f.sessions })
  | .setEnv name value => (.ok .unit, { f with host := f.host.setEnv name value })
  | .resize fd rows cols =>
    let (result, host) := f.host.resize fd rows cols
    (result.map fun () ↦ .unit, { f with host })

def moveAll (moves : List Move) : Fleet := moves.foldl (fun f m ↦ (f.move m).2) f

def renew (name : String) : Fleet := f.moveAll [.create name, .retireHidden name]

/-- A session that opens takes over a name; one that does not leaves the older one in place. -/
def reopen (name : String) (term : Option String) (fd : Descriptor) : Answer × Fleet :=
  match f.move (.establish name term fd) with
  | (.ok value, f) => (.ok value, (f.move (.retireHidden name)).2)
  | (.error e, f) => (.error e, f)

end Fleet

end Terminfo

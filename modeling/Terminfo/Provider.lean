import Terminfo.Context

set_option autoImplicit false

namespace Terminfo

abbrev Address := Nat

/-- How the provider places a new context. Addresses of contexts that are gone may come back. -/
structure Allocator where
  choose : Nat → List Address → Address
  choose_notMem : ∀ n live, choose n live ∉ live

namespace Allocator

theorem le_foldr_max {a : Address} {live : List Address} (h : a ∈ live) : a ≤ live.foldr max 0 := by
  induction live with
  | nil => simp at h
  | cons b live ih =>
    rcases List.mem_cons.1 h with rfl | h
    · exact Nat.le_max_left _ _
    · exact Nat.le_trans (ih h) (Nat.le_max_right _ _)

def ascending : Allocator where
  choose _ live := live.foldr max 0 + 1
  choose_notMem _ _ h := Nat.not_succ_le_self _ (le_foldr_max h)

end Allocator

/-- The provider of terminal descriptions answers every question for its one current terminal. -/
structure Provider where
  allocator : Allocator
  contexts : List (Address × Context) := []
  current : Option Address := none
  placed : Nat := 0
  /-- Some call named a context that does not exist. -/
  misused : Bool := false

inductive SetupFault
  | unavailable
  | notFound
  | hardcopy
  deriving DecidableEq, Repr

namespace Provider

def longestName : Nat := 512

def requested (h : Host) (name : Option Bytes) : Except SetupFault Bytes :=
  let fromEnv := (h.env.get? "TERM").filter fun b ↦ !b.isEmpty
  match name.or fromEnv with
  | none => .error .unavailable
  | some b => if longestName < b.length then .error .unavailable else .ok b

/-- The name stands for a directory, or has a mark in it that parts the steps of a path or two
paths, so that no entry is looked for under it. -/
def isPathlike (name : Bytes) : Bool :=
  let dot := Bytes.ofLetter '.'
  name = [] || name = [dot] || name = [dot, dot] ||
    name.any fun b ↦ b = Bytes.ofLetter '/' || b = Bytes.ofLetter ':'

def find? (h : Host) (name : Bytes) : Option Entry :=
  if isPathlike name then none else (Bytes.text? name).bind h.entry?

def absence (h : Host) (name : Bytes) : SetupFault :=
  if isPathlike name || h.hasDatabase then .notFound else .unavailable

variable (p : Provider)

def addresses : List Address := p.contexts.map (·.1)

def context? : Option Context := p.current.bind fun address ↦ p.contexts.lookup address

def misuse (bad : Bool) : Provider := { p with misused := p.misused || bad }

def select (address : Option Address) : Provider :=
  { p.misuse (address.any (!p.addresses.contains ·)) with current := address }

def delete (address : Address) : Provider :=
  { p.misuse (!p.addresses.contains address) with
    contexts := p.contexts.filter (·.1 ≠ address)
    current := if p.current = some address then none else p.current }

def place (c : Context) : Address × Provider :=
  let address := p.allocator.choose p.placed p.addresses
  (address, { p with contexts := (address, c) :: p.contexts, placed := p.placed + 1 })

def reuses (h : Host) (name : Bytes) (fd : Descriptor) : Bool :=
  p.context?.any fun c ↦ c.name = name && c.descriptor = Context.redirected h fd

/-- Sets up a terminal and makes it current. The types that turn out to be unusable only when their
description has been read stay current, unless they are generic in earnest. -/
def setup (h : Host) (name : Option Bytes) (fd : Descriptor) : Except SetupFault Unit × Provider :=
  match requested h name with
  | .error fault => (.error fault, p)
  | .ok name =>
    if p.reuses h name fd then (.ok (), p)
    else
      match find? h name with
      | none => (.error (absence h name), p)
      | some entry =>
        let (address, placed) := p.place (Context.load h name fd entry)
        let installed := placed.select (some address)
        if entry.flag "gn" then
          if entry.canAddress then (.error .hardcopy, installed)
          else (.error .notFound, installed.delete address)
        else if entry.flag "hc" then (.error .hardcopy, installed)
        else (.ok (), installed)

def update (address : Address) (c : Context) : Provider :=
  { p with contexts := p.contexts.map fun b ↦ if b.1 = address then (b.1, c) else b }

def lookup (name : String) (kind : Kind) : Capability :=
  (p.context?.map (·.lookup name kind)).getD .notThisType

def expand (parameters : List Int64) (template : Bytes) : Option Bytes × Provider :=
  match p.current, p.context? with
  | some address, some c =>
    let (expanded, c) := c.expand parameters template
    (expanded, p.update address c)
  | _, _ => (some [], p)

def emitted (lines : Int32) (template : Bytes) : Bytes :=
  (p.context?.map (·.pad lines template)).getD []

end Provider

end Terminfo

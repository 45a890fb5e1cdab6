import Warpshell.Interaction.Trace
import Warpshell.Shells.XilinxU55nXdmaStd
import Warpshell.Xdma.Channels

/-!
# Initialised once

A process holds one cell for each channel, and asks for the channels again and again, directly or with
`XilinxU55nXdmaStd::new`, while the device nodes come and go. `lasting_iff` says which of its runs keep
the channel that was returned first: a call opens the nodes even when its cell is set.
-/

namespace Warpshell.U55n
open Files Interaction Xdma

/-- A shell (Rust `XilinxU55nXdmaStd`): its cores, each with the channels it refers to. -/
structure XilinxU55nXdmaStd where
  cms : CtrlChannel
  hbm : DmaChannel
  ctrlAxiFirewall : CtrlChannel
  dmaAxiFirewall : CtrlChannel
  hbicap : CtrlChannel × DmaChannel
  dfxDecoupler : CtrlChannel
  deriving DecidableEq, Repr

/-- A process with its two cells (Rust `CTRL_CHANNEL` and `DMA_CHANNEL0`). -/
structure Process where
  sys : Host
  ctrl : OnceCellCtrlChannel
  dma : OnceCellDmaChannel

/-- A call, with the cell and the system it found, and what it returned. -/
inductive ChannelCall where
  | ctrl (cell : OnceCellCtrlChannel) (before : Host) (result : Except XdmaError CtrlChannel)
  | dma (cell : OnceCellDmaChannel) (before : Host) (result : Except XdmaError DmaChannel)
  | new (result : Except Error XilinxU55nXdmaStd)

namespace Process

def ctrlGetOrInit (p : Process) : Except XdmaError CtrlChannel × Process :=
  match p.ctrl.getOrInit p.sys with
  | (result, ctrl, sys) => (result, { p with ctrl, sys })

def dmaGetOrInit (p : Process) : Except XdmaError DmaChannel × Process :=
  match p.dma.getOrInit p.sys with
  | (result, dma, sys) => (result, { p with dma, sys })

end Process

/-- Rust `XilinxU55nXdmaStd::new`. -/
def XilinxU55nXdmaStd.new (p : Process) : Except Error XilinxU55nXdmaStd × Process :=
  match p.ctrlGetOrInit with
  | (.error e, p) => (.error (.xdmaError e), p)
  | (.ok ctrlChannel, p) =>
    match p.dmaGetOrInit with
    | (.error e, p) => (.error (.xdmaError e), p)
    | (.ok dmaChannel, p) =>
      (.ok {
        cms := ctrlChannel
        hbm := dmaChannel
        ctrlAxiFirewall := ctrlChannel
        dmaAxiFirewall := ctrlChannel
        hbicap := (ctrlChannel, dmaChannel)
        dfxDecoupler := ctrlChannel }, p)

/-! ## Runs -/

/-- What happens next: anything to the file system and to the number of descriptors left, or a call. -/
inductive Input where
  | change (fs : FileSystem String) (spare : Nat)
  | ctrl
  | dma
  | new

namespace Process

/-- The calls made by `XilinxU55nXdmaStd::new`, and itself. -/
def newCalls (p : Process) : List ChannelCall :=
  match p.ctrlGetOrInit with
  | (.error e, _) => [.ctrl p.ctrl p.sys (.error e), .new (XilinxU55nXdmaStd.new p).1]
  | (.ok c, q) => [.ctrl p.ctrl p.sys (.ok c), .dma q.dma q.sys q.dmaGetOrInit.1,
      .new (XilinxU55nXdmaStd.new p).1]

def step (p : Process) : Input → List ChannelCall × Process
  | .change fs spare => ([], { p with sys := { p.sys with fs, spare } })
  | .ctrl => ([.ctrl p.ctrl p.sys p.ctrlGetOrInit.1], p.ctrlGetOrInit.2)
  | .dma => ([.dma p.dma p.sys p.dmaGetOrInit.1], p.dmaGetOrInit.2)
  | .new => (p.newCalls, (XilinxU55nXdmaStd.new p).2)

/-- The calls of a run. -/
def run (p : Process) : List Input → List ChannelCall
  | [] => []
  | i :: is => (p.step i).1 ++ (p.step i).2.run is

end Process

/-- A call returned this control channel. -/
def GotCtrl (past : List ChannelCall) (c : CtrlChannel) : Prop :=
  ∃ cell before, .ctrl cell before (.ok c) ∈ past

def GotDma (past : List ChannelCall) (d : DmaChannel) : Prop :=
  ∃ cell before, .dma cell before (.ok d) ∈ past

/-- A call returns the channel that an earlier one returned, and a shell is one that was there. -/
def Lasts (past : List ChannelCall) : ChannelCall → Prop
  | .ctrl _ _ result => ∀ c, GotCtrl past c → result = .ok c
  | .dma _ _ result => ∀ d, GotDma past d → result = .ok d
  | .new result => ∀ shell, .new (.ok shell) ∈ past → result = .ok shell

/-- A call on a cell that was initialised before finds device nodes that it can open. -/
def FindsNodes (past : List ChannelCall) : ChannelCall → Prop
  | .ctrl cell before _ => (∃ c, GotCtrl past c) → cell.Connects before
  | .dma cell before _ => (∃ d, GotDma past d) → cell.Connects before
  | .new _ => True

/-- Once a call has returned a channel, every later one returns it, and with them the shells. -/
def Lasting (calls : List ChannelCall) : Prop := Guarded Lasts [] calls

/-- The shell made of two channels. -/
def shellOf (c : CtrlChannel) (d : DmaChannel) : XilinxU55nXdmaStd := ⟨c, d, c, c, (c, d), c⟩

/-- A shell was made of two channels that calls have returned. -/
def Made (past : List ChannelCall) (shell : XilinxU55nXdmaStd) : Prop :=
  ∃ c d, GotCtrl past c ∧ GotDma past d ∧ shell = shellOf c d

/-- The cells hold what was returned before. -/
structure Remembers (past : List ChannelCall) (p : Process) : Prop where
  ctrl : ∀ c, GotCtrl past c → p.ctrl.channel = some c
  dma : ∀ d, GotDma past d → p.dma.channel = some d
  new : ∀ shell, .new (.ok shell) ∈ past → Made past shell

/-- The cells hold what this call returned. -/
def Held (past : List ChannelCall) (p : Process) : ChannelCall → Prop
  | .ctrl _ _ result => ∀ c, result = .ok c → p.ctrl.channel = some c
  | .dma _ _ result => ∀ d, result = .ok d → p.dma.channel = some d
  | .new result => ∀ shell, result = .ok shell → Made past shell

section
variable {p q : Process} {past : List ChannelCall} {x : ChannelCall} {c : CtrlChannel} {d : DmaChannel}
  {rc : Except XdmaError CtrlChannel} {rd : Except XdmaError DmaChannel} {shell : XilinxU55nXdmaStd}

/-! ## One call -/

lemma GotCtrl.append (got : GotCtrl past c) : GotCtrl (past ++ [x]) c := by
  obtain ⟨cell, before, mem⟩ := got
  exact ⟨cell, before, List.mem_append_left _ mem⟩

lemma GotDma.append (got : GotDma past d) : GotDma (past ++ [x]) d := by
  obtain ⟨cell, before, mem⟩ := got
  exact ⟨cell, before, List.mem_append_left _ mem⟩

lemma Made.append (made : Made past shell) : Made (past ++ [x]) shell := by
  obtain ⟨c, d, ctrl, dma, eq⟩ := made
  exact ⟨c, d, ctrl.append, dma.append, eq⟩

/-- After one more call, if the cells keep what they hold and hold what the call returned. -/
lemma Remembers.concat (rem : Remembers past p)
    (ctrl : ∀ c, p.ctrl.channel = some c → q.ctrl.channel = some c)
    (dma : ∀ d, p.dma.channel = some d → q.dma.channel = some d) (held : Held past q x) :
    Remembers (past ++ [x]) q := by
  refine ⟨fun c got => ?_, fun d got => ?_, fun shell mem => ?_⟩
  · obtain ⟨cell, before, mem⟩ := got
    obtain mem | mem := List.mem_append.mp mem
    · exact ctrl c (rem.ctrl c ⟨cell, before, mem⟩)
    · rw [← List.mem_singleton.mp mem] at held
      exact held c rfl
  · obtain ⟨cell, before, mem⟩ := got
    obtain mem | mem := List.mem_append.mp mem
    · exact dma d (rem.dma d ⟨cell, before, mem⟩)
    · rw [← List.mem_singleton.mp mem] at held
      exact held d rfl
  · obtain mem | mem := List.mem_append.mp mem
    · exact (rem.new shell mem).append
    · rw [← List.mem_singleton.mp mem] at held
      exact (held shell rfl).append

/-- A shell of channels returned before leaves the cells alone. -/
lemma Remembers.new_ok (rem : Remembers past p) (ctrl : GotCtrl past c) (dma : GotDma past d) :
    Remembers (past ++ [.new (.ok (shellOf c d))]) p := by
  refine rem.concat (fun _ => id) (fun _ => id) (fun shell eq => ?_)
  cases eq
  exact ⟨c, d, ctrl, dma, rfl⟩

/-- A shell that was not made leaves the cells alone. -/
lemma Remembers.new_error (rem : Remembers past p) (e : Error) :
    Remembers (past ++ [.new (.error e)]) p :=
  rem.concat (fun _ => id) (fun _ => id) (fun _ eq => by cases eq)

/-- A call for the control channel lasts exactly when it finds its node. -/
lemma ctrl_call (rem : Remembers past p) (eq : p.ctrlGetOrInit = (rc, q)) :
    (Lasts past (.ctrl p.ctrl p.sys rc) ↔ FindsNodes past (.ctrl p.ctrl p.sys rc)) ∧
      Remembers (past ++ [.ctrl p.ctrl p.sys rc]) q := by
  have got := p.ctrl.got p.sys
  rw [Process.ctrlGetOrInit] at eq
  cases eq
  refine ⟨got.again rem.ctrl, rem.concat ?_ (fun _ => id) ?_⟩
  · intro c held
    exact got.keeps held
  · intro c result
    exact got.returned result

/-- A call for the DMA channel lasts exactly when it finds its nodes. -/
lemma dma_call (rem : Remembers past p) (eq : p.dmaGetOrInit = (rd, q)) :
    (Lasts past (.dma p.dma p.sys rd) ↔ FindsNodes past (.dma p.dma p.sys rd)) ∧
      Remembers (past ++ [.dma p.dma p.sys rd]) q := by
  have got := p.dma.got p.sys
  rw [Process.dmaGetOrInit] at eq
  cases eq
  refine ⟨got.again rem.dma, rem.concat (fun _ => id) ?_ ?_⟩
  · intro d held
    exact got.keeps held
  · intro d result
    exact got.returned result

/-- A shell was made before, and what made it lasts: it is made of the same channels again. -/
lemma Made.lasts {cell : OnceCellCtrlChannel} {before : Host} (made : Made past shell)
    (ctrl : Lasts past (.ctrl cell before rc)) : ∃ c d, rc = .ok c ∧ GotDma past d ∧
      shell = shellOf c d := by
  obtain ⟨c, d, gotCtrl, gotDma, eq⟩ := made
  exact ⟨c, d, ctrl c gotCtrl, gotDma, eq⟩

/-- A new shell lasts exactly when the calls behind it do. -/
lemma new_call (rem : Remembers past p) :
    (Guarded Lasts past p.newCalls ↔ Guarded FindsNodes past p.newCalls) ∧
      Remembers (past ++ p.newCalls) (XilinxU55nXdmaStd.new p).2 := by
  have earlier : ∀ {shell}, .new (.ok shell) ∈ past → Made past shell := fun mem => rem.new _ mem
  unfold Process.newCalls XilinxU55nXdmaStd.new
  match first : p.ctrlGetOrInit with
  | (.error e, q) =>
    -- No control channel, which lasts only if there was none before, and then there was no shell.
    obtain ⟨ctrl, rem'⟩ := ctrl_call rem first
    simp only [guarded_cons, guarded_nil, and_true]
    refine ⟨⟨fun ⟨lasts, _⟩ => ⟨ctrl.mp lasts, trivial⟩, fun ⟨finds, _⟩ => ?_⟩, ?_⟩
    · refine ⟨ctrl.mpr finds, fun shell mem => ?_⟩
      obtain ⟨c, d, eq, _⟩ := (earlier (by simpa using mem)).lasts (ctrl.mpr finds)
      cases eq
    · have rem'' := rem'.new_error (.xdmaError e)
      rwa [List.append_assoc] at rem''
  | (.ok c, q) =>
    obtain ⟨ctrl, rem'⟩ := ctrl_call rem first
    match second : q.dmaGetOrInit with
    | (.error e, q') =>
      -- The same for the DMA channel.
      obtain ⟨dma, rem''⟩ := dma_call rem' second
      simp only [second, guarded_cons, guarded_nil, and_true]
      refine ⟨⟨fun ⟨lasts, lasts', _⟩ => ⟨ctrl.mp lasts, dma.mp lasts', trivial⟩,
        fun ⟨finds, finds', _⟩ => ?_⟩, ?_⟩
      · refine ⟨ctrl.mpr finds, dma.mpr finds', fun shell mem => ?_⟩
        obtain ⟨_, d, _, got, _⟩ := (earlier (by simpa using mem)).lasts (ctrl.mpr finds)
        cases dma.mpr finds' d got.append
      · have rem₃ := rem''.new_error (.xdmaError e)
        rwa [List.append_assoc, List.append_assoc] at rem₃
    | (.ok d, q') =>
      -- Both channels are there, and an earlier shell was made of the same two.
      obtain ⟨dma, rem''⟩ := dma_call rem' second
      simp only [second, guarded_cons, guarded_nil, and_true]
      refine ⟨⟨fun ⟨lasts, lasts', _⟩ => ⟨ctrl.mp lasts, dma.mp lasts', trivial⟩,
        fun ⟨finds, finds', _⟩ => ?_⟩, ?_⟩
      · refine ⟨ctrl.mpr finds, dma.mpr finds', fun shell mem => ?_⟩
        obtain ⟨c', d', same, got, eq⟩ := (earlier (by simpa using mem)).lasts (ctrl.mpr finds)
        cases same
        cases dma.mpr finds' d' got.append
        rw [eq]
        rfl
      · have rem₃ := rem''.new_ok (GotCtrl.append ⟨_, _, List.mem_concat_self⟩)
          ⟨_, _, List.mem_concat_self⟩
        rwa [List.append_assoc, List.append_assoc] at rem₃

/-! ## Runs of a process -/

/-- The calls of one step last exactly when they find their nodes. -/
lemma step_lasts (rem : Remembers past p) (i : Input) :
    (Guarded Lasts past (p.step i).1 ↔ Guarded FindsNodes past (p.step i).1) ∧
      Remembers (past ++ (p.step i).1) (p.step i).2 := by
  cases i with
  | change fs spare =>
    refine ⟨⟨fun _ => guarded_nil, fun _ => guarded_nil⟩, ?_⟩
    rw [Process.step, List.append_nil]
    exact ⟨rem.ctrl, rem.dma, rem.new⟩
  | ctrl =>
    obtain ⟨iff, rem'⟩ := ctrl_call rem rfl
    simp only [Process.step, guarded_cons, guarded_nil, and_true]
    exact ⟨iff, rem'⟩
  | dma =>
    obtain ⟨iff, rem'⟩ := dma_call rem rfl
    simp only [Process.step, guarded_cons, guarded_nil, and_true]
    exact ⟨iff, rem'⟩
  | new => exact new_call rem

/-- The calls of a run last exactly when they find their nodes. -/
lemma run_lasts (rem : Remembers past p) (is : List Input) :
    Guarded Lasts past (p.run is) ↔ Guarded FindsNodes past (p.run is) := by
  -- What carries the induction is that the cells hold what was returned so far.
  induction is generalizing past p with
  | nil => exact ⟨fun _ => guarded_nil, fun _ => guarded_nil⟩
  | cons i is ih =>
    obtain ⟨iff, rem'⟩ := step_lasts rem i
    rw [Process.run, guarded_append, guarded_append, iff, ih rem']

end

/-- In a run of a process, every call returns the channel that was returned first, and every shell has
    the same channels, exactly when every call on a cell that was initialised before finds device nodes
    that it can open. -/
theorem lasting_iff (p : Process) (is : List Input) :
    Lasting (p.run is) ↔ Guarded FindsNodes [] (p.run is) := by
  apply run_lasts
  refine ⟨fun c ⟨_, _, mem⟩ => ?_, fun d ⟨_, _, mem⟩ => ?_, fun shell mem => ?_⟩
  all_goals cases mem

/-- A process that has not asked for a channel yet, on a host where each node is a device. -/
def started : Process :=
  ⟨⟨⟨fun _ => some ⟨.special, fun _ => none⟩, fun _ => .error eacces⟩, 8, 0⟩, ctrlChannel, dmaChannel0⟩

/-- The device nodes go away after a shell was made: the next one is not made, though both cells are
    set. -/
theorem gone_nodes_fail :
    let gone : Input := .change ⟨fun _ => none, fun _ => .error eacces⟩ 8
    (∃ shell, .new (.ok shell) ∈ started.run [.new]) ∧
    (∃ rest, started.run [.new, gone, .new] = started.run [.new] ++ rest ∧
      .new (.error (.xdmaError (.devNode (.os enoent)))) ∈ rest) ∧
    ¬ Lasting (started.run [.new, gone, .new]) := by
  intro gone
  refine ⟨⟨_, .tail _ (.tail _ (.head _))⟩, ⟨_, rfl, .tail _ (.head _)⟩, fun lasting => ?_⟩
  have again := lasting (started.run [.new]) _ _ rfl
  cases again _ ⟨_, _, .head _⟩

end Warpshell.U55n

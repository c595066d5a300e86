import Mochad.Encode.Lines

/-!
# Mochad.Daemon

The start-up and the main loop of `mochad.c`.

One iteration of the loop is a function of what the outside delivers in it: the
result of `poll`, the USB transfers that have completed, and the results of the
`accept` and `read` calls.  The AMQP thread of `sensorflare.c` is not modelled.
-/

namespace Mochad

open CString

/-! ## Start-up -/

/-- `initcm15abinary`: nothing is sent to a CM15A. -/
def initcm15abinary : List (List UInt8) := []

/-- `initcm19abinary`. -/
def initcm19abinary : List (List UInt8) :=
  [[0x80, 0x05, 0x1b, 0x14, 0x28, 0x20, 0x24, 0x29],
   [0x83, 0x03],
   [0x84, 0x37, 0x02, 0x60, 0x00, 0x00, 0x00, 0x00],
   [0x80, 0x01, 0x00, 0x14, 0x20, 0x24, 0x28, 0x29],
   [0x83, 0x02, 0x0f],
   [0x83, 0x37, 0x02, 0x60, 0x00, 0x00, 0x00, 0x00],
   [0x20, 0x34, 0xcb, 0x58, 0xa7],
   [0x80, 0x05, 0x01, 0x14, 0x20, 0x24, 0x28, 0x29]]

/-- `initcm1Xa`. -/
def initcm1Xa (p : List (List UInt8)) (w : World) : World :=
  p.foldl (fun w bindata => (w.x10Write bindata bindata.length).2) w

/-- What the program cannot choose: the controller found, the command line
switch, the clock and the contents of fresh automatic buffers. -/
structure Setup where
  cm19a : Bool
  rawData : Bool
  clock : Nat → Nat
  junk : Ptr

/-- An instance whose clock stands still and whose buffers start out zero. -/
def stillSetup (cm19a : Bool) : Setup := ⟨cm19a, false, fun _ => 0, fun _ => 0⟩

/-- All variables as the program starts, after `hua_sec_init` and `find_cm15a`. -/
def worldInit (e : Setup) : World where
  cm19a := e.cm19a
  rawData := e.rawData
  rfToPl16 := 0xFFFF
  rfToRf16 := 0
  clock := e.clock
  state := huaSecInit
  fifo := fifoInit
  dups := dupsInit
  remainder := List.replicate remainderSize 0
  remlen := 0
  clients := initClient
  sockPort := fun _ => none
  junk := e.junk
  lines := []
  io := []
  writes := []
  usb := []
  accesses := []

/-- `mydaemon` up to its loop: the controller is initialised, then
`PollTimeOut` is set.  The thread of the AMQP receiver, which `init_sensorflare`
starts in between, is left out: if a message comes before `PollTimeOut` is set,
`x10_write` is called first, and -1 takes the place of its timeout. -/
def startup (e : Setup) : World :=
  let w := worldInit e
  let w := initcm1Xa (if w.cm19a then initcm19abinary else initcm15abinary) w
  let w := w.sendMessage (some (cstr "Connected " ++
    (if w.cm19a then cstr "CM19A" else cstr "CM15A") ++ cstr "\n"))
  let w := { w with clients := initClient }
  { w with fifo := { w.fifo with pollTimeOut := -1 } }

/-! ## The main loop -/

/-- `POLLIN`. -/
def pollin : Nat := 0x001

/-- `POLLERR`. -/
def pollerr : Nat := 0x008

/-- Result of `read`. -/
inductive ReadResult where
  | err
  | eof
  | data (buf : List UInt8)
deriving DecidableEq, Repr

/-- A completed USB transfer, or one that ended with another status. -/
inductive Transfer where
  | completed (buffer : List UInt8)
  | failed
deriving DecidableEq, Repr

/-- What the outside delivers in one iteration.  Records of the `Clients` array
are numbered as in the source: the three listening sockets, the USB
descriptors, the client sockets. -/
structure PollEnv where
  nready : Int
  revents : Nat → Nat
  transfers : List Transfer
  accepted : Nat → Int
  read : Nat → ReadResult

/-- The variables of the loop. -/
structure Daemon where
  world : World
  /-- The buffer of the IN transfer; a short transfer leaves old bytes behind it. -/
  intrInBuf : List UInt8
  nusbfds : Nat
  /-- Descriptors in `Clients` from the client records on. -/
  records : List Int
  doExit : Bool

/-- `IntrIn_cb`: a single byte is the acknowledge of the controller. -/
def intrInCb (transfer : Transfer) (d : Daemon) : Daemon :=
  match transfer with
  | .failed => { d with doExit := true }
  | .completed buffer =>
      let intrInBuf := memcpy d.intrInBuf buffer buffer.length
      let w := if buffer.length = 1 then d.world.sendNextX10out else d.world
      { d with
        intrInBuf := intrInBuf
        world := cm15aDecode (-1) (Ptr.ofList intrInBuf) buffer.length w }

/-- `accept` on listening socket `k`, and the client table that takes it. -/
def acceptClient (k : Nat) (add : Int → Clients → Int × Clients) (clifd : Int) (w : World) :
    World :=
  let w := if 0 ≤ clifd then
      { w with sockPort := Function.update w.sockPort clifd (some (serverPort + k)) }
    else w
  { w with clients := (add clifd w.clients).2 }

/-- `accept` changes the tables, the ports and the calls on sockets alone. -/
theorem acceptClient_eq (k : Nat) (add : Int → Clients → Int × Clients) (clifd : Int) (w : World) :
    ∃ clients sockPort,
      acceptClient k add clifd w = { w with clients := clients, sockPort := sockPort } := by
  unfold acceptClient
  dsimp only
  split <;> exact ⟨_, _, rfl⟩

/-- One client record that is ready: read, and encode or drop the client. -/
def serveClient (clifd : Int) (r : ReadResult) (w : World) : World :=
  match r with
  | .err | .eof => ((w.close clifd).delClient clifd).2
  | .data buf => cm15aEncode clifd buf w

/-- The scan of the client records from record `i` on. -/
def scanClients (env : PollEnv) (i : Nat) (nready : Int) (w : World) : List Int → World
  | [] => w
  | clifd :: records =>
      if 0 ≤ clifd ∧ env.revents i &&& (pollin ||| pollerr) ≠ 0 then
        let w := serveClient clifd (env.read i) w
        if nready - 1 ≤ 0 then w else scanClients env (i + 1) (nready - 1) w records
      else scanClients env (i + 1) nready w records

/-- The listening sockets from number `k` on, then the client records;
`continue` and `break` end the iteration when all ready records are served. -/
def serveSockets (env : PollEnv) (first : Nat) (records : List Int) :
    Nat → List (Int → Clients → Int × Clients) → Int → World → World
  | _, [], nready, w => scanClients env first nready w records
  | k, add :: adds, nready, w =>
      if env.revents k &&& pollin ≠ 0 then
        let w := acceptClient k add (env.accepted k) w
        if nready - 1 ≤ 0 then w
        else serveSockets env first records (k + 1) adds (nready - 1) w
      else serveSockets env first records (k + 1) adds nready w

/-- One iteration of the main loop. -/
def iterate (d : Daemon) (env : PollEnv) : Daemon :=
  let (records, nsockclients) := copyClients d.records d.world.clients
  let d := { d with records := records }
  if env.nready = 0 then { d with world := d.world.sendNextX10out }
  else
    let d := env.transfers.foldl (fun d transfer => intrInCb transfer d) d
    let adds := [addClient, addXmlclient, addOr20client]
    let w := serveSockets env (3 + d.nusbfds) (records.take nsockclients) 0 adds env.nready d.world
    { d with world := w }

/-- The loop before its first iteration. -/
def daemonInit (e : Setup) (nusbfds : Nat) : Daemon where
  world := startup e
  intrInBuf := List.replicate 8 0
  nusbfds := nusbfds
  records := List.replicate (3 * (1 + maxclisockets) + 10 - (3 + nusbfds)) 0
  doExit := false

/-- The main loop over a sequence of iterations; it stops when a transfer has
failed. -/
def mydaemon (d : Daemon) : List PollEnv → Daemon
  | [] => d
  | env :: envs => if d.doExit then d else mydaemon (iterate d env) envs

end Mochad

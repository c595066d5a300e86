import Mochad.Encode.Transmit

/-!
# Mochad.Encode.Command

`processcommandline` and the `ST` display of `x10state.c`.

The parser is written against an arbitrary decoder (`processcommandlineWith`)
and then tied to `cm15aDecodeRfWith`: a command may decode an RF packet, the
decoder may bridge it with a `PL` command, and a `PL` command never decodes an
RF packet, which is where the recursion ends (`cm15aDecodeRf_eq`).
-/

namespace Mochad

open CString
open World (idx16)

/-! ## `hua_show` -/

/-- `House %c: ` and the units listed behind it, nothing for an empty list. -/
def houseLine (h : Fin 16) (items : List Text) : Option Text :=
  if items = [] then none
  else some (cstr "House " ++ [UInt8.ofNat (h.val + 65)] ++ cstr ": " ++
    (cstr ",").intercalate items ++ cstr "\n")

/-- The lines of one of the two device lists. -/
def houseLines (item : Fin 16 → Fin 16 → Option Text) : List Text :=
  (List.finRange 16).filterMap fun h => houseLine h ((List.finRange 16).filterMap (item h))

/-- The listed units of `Device selected`. -/
def selectedItem (s : X10state) (h u : Fin 16) : Option Text :=
  if s.houseUnitSelected h u ≠ 0 then some (dec (u.val + 1)) else none

/-- The listed units of `Device status`. -/
def statusItem (s : X10state) (h u : Fin 16) : Option Text :=
  if s.houseUnitState h u ≠ 0 then
    some (dec (u.val + 1) ++ cstr "=" ++ [s.houseUnitState h u])
  else none

/-- Print a line and send it as a message. -/
def showLine (fd : Int) (w : World) (line : Text) : World :=
  (w.sockprintf fd line).sendMessage (some line)

/-- The event name of a sensor, by address kind. -/
def sensorMessage (sen : X10secsensor) : Option Text :=
  if sen.secaddr8 ≠ 0 then (findSecRemoteKeyName sen.sensorstatus).map cstr
  else (findSecEventName sen.sensorstatus).map cstr

/-- One sensor of `hua_show`. -/
def showSensor (fd : Int) (w : World) (sen : X10secsensor) : World :=
  let (now, w) := w.time
  let deltat : Int := (now : Int) - sen.lastupdate
  let mins := deltat.tdiv 60
  let deltat := deltat - mins * 60
  let message := sensorMessage sen
  let w := w.sendMessage message
  w.sockprintf fd (cstr "Sensor addr: " ++ hexPad 6 sen.secaddr ++ cstr " Last: " ++ dec2 mins ++
    cstr ":" ++ dec2 deltat ++ cstr " " ++ strArg message ++ cstr " \n")

/-- `hua_show`. -/
def huaShow (fd : Int) (w : World) : World :=
  let w := w.sockprintf fd (cstr "Device selected\n")
  let w := (houseLines (selectedItem w.state)).foldl (showLine fd) w
  let w := w.sockprintf fd (cstr "Device status\n")
  let w := (houseLines (statusItem w.state)).foldl (showLine fd) w
  let w := w.sockprintf fd (cstr "Security sensor status\n")
  let w := { w with state := sortSensors w.state }
  let w := w.state.x10sensors.foldl (showSensor fd) w
  w.sockprintf fd (cstr "End status\n")

/-! ## `processcommandline` -/

/-- The cross-domain policy, sent with its terminator. -/
def domainpolicy : Text :=
  cstr "<?xml version=\"1.0\"?>" ++
  cstr "<!DOCTYPE cross-domain-policy SYSTEM \"http://www.adobe.com/xml/dtds/cross-domain-policy.dtd\">" ++
  cstr "<cross-domain-policy>" ++
  cstr "<allow-access-from domain=\"*.chumby.com\" to-ports=\"1100\" />" ++
  cstr "</cross-domain-policy>" ++ [0]

/-- OpenRemote 2.0 clients are told that the command has arrived. -/
def ackOr20 (fd : Int) (w : World) : World :=
  if w.or20client fd then w.statusprintf fd (cstr "ok\n") else w

/-- A parameter that may be left out: -1 stands for the default. -/
def getparamOr (default : Int) (t : Strtok) : Int × Strtok :=
  let (param, t) := getparam t
  (if param = -1 then default else param, t)

/-- `PL` with a house and a unit. -/
def plUnit (house unit : Int) (t : Strtok) (w : World) : Int × Strtok × World :=
  let (func, t) := getfunc t
  if func < 0 then (-1, t, (plTxHouseunit house unit w).2)
  else if func = funcExtendedDim then
    let (param, t) := getparamOr 1 t
    (0, t, (plTxExtendedCode1 house unit 3 1 param w).2)
  else if func = funcDim ∨ func = funcBright then
    let (param, t) := getparamOr 1 t
    let w := (plTxHouseunit house unit w).2
    (0, t, (plTxHousefunc house func param w).2)
  else if func = funcExtendedCode1 then
    let (command, t) := getparamOr 0 t
    let (subcmd, t) := getparamOr 0 t
    let (data, t) := getparamOr 0 t
    (0, t, (plTxExtendedCode1 house unit command subcmd data w).2)
  else
    let w := (plTxHouseunit house unit w).2
    (0, t, (plTxHousefunc house func 0 w).2)

/-- `PL` with a house only. -/
def plHouse (house : Int) (t : Strtok) (w : World) : Int × Strtok × World :=
  let (func, t) := getfunc t
  if func < 0 ∨ func = funcExtendedDim then (-1, t, w)
  else if func = funcDim ∨ func = funcBright then
    let (param, t) := getparamOr 1 t
    (0, t, (plTxHousefunc house func param w).2)
  else (0, t, (plTxHousefunc house func 0 w).2)

/-- `PL`: power line transmit. -/
def plCommand (fd : Int) (t : Strtok) (w : World) : Int × Strtok × World :=
  let w := ackOr20 fd w
  let (house, unit, t) := getdeviceaddr t
  if house < 0 then (-1, t, w)
  else if unit < 0 then plHouse house t w
  else plUnit house unit t w

/-- `PT`: pass hex bytes through.  `len` is a `size_t`, so -1 is huge. -/
def ptCommand (fd : Int) (t : Strtok) (w : World) : Int × Strtok × World :=
  let w := ackOr20 fd w
  let (x10bytes8, rc, t) := gethexdata t
  let len := (rc % 2 ^ 64).toNat
  if len > 0 then (0, t, (w.x10Write x10bytes8 len).2) else (0, t, w)

/-- `RFTOPL`: house codes bridged from RF to the power line. -/
def rftoplCommand (fd : Int) (t : Strtok) (w : World) : Int × Strtok × World :=
  let w := ackOr20 fd w
  let (mask, t) := gethousecodes t
  let w := { w with rfToPl16 := mask }
  (0, t, w.sockprintf fd (cstr "RfToPl " ++ hexPad 4 w.rfToPl16 ++ cstr "\n"))

/-- `RFTORF`: RF repeater. -/
def rftorfCommand (fd : Int) (t : Strtok) (w : World) : Int × Strtok × World :=
  let w := ackOr20 fd w
  let (arg1, t) := nextWord t
  let w := match arg1 with
    | some arg1 => { w with rfToRf16 := (strtoul 10 arg1).1 % 2 ^ 16 }
    | none => w
  (0, t, w.sockprintf fd (cstr "RfToRf " ++ hexPad 4 w.rfToRf16 ++ cstr "\n"))

/-- `ST`: show the tracked state, `ST 0` clears it. -/
def stCommand (fd : Int) (t : Strtok) (w : World) : Int × Strtok × World :=
  let (arg1, t) := nextWord t
  if arg1 = some (cstr "0") then (0, t, { w with state := huaSecInit })
  else (0, t, huaShow fd w)

/-- `GETSTATUS`: on/off status or dim level of a unit. -/
def getstatusCommand (fd : Int) (t : Strtok) (w : World) : Int × Strtok × World :=
  let (house, unit, t) := getdeviceaddr t
  if 0 ≤ house ∧ 0 ≤ unit then
    let (arg1, t) := nextWord t
    let addr := [UInt8.ofInt (65 + house)] ++ dec (1 + unit) ++ cstr " "
    match arg1 with
    | some arg1 =>
        if arg1 = cstr "XDIM" then
          let w := (w.access .house house).access .unit unit
          let status := dec (huaGetstatusXdim (idx16 house) (idx16 unit) w.state).toNat
          let w := w.statusprintf fd (status ++ cstr "\n")
          (0, t, w.sendMessage (some (addr ++ status ++ cstr "\n")))
        else
          let w := w.statusprintf fd (cstr "-1\n")
          (0, t, w.sendMessage (some (addr ++ cstr "-1\n")))
    | none =>
        let w := (w.access .house house).access .unit unit
        let status :=
          if huaGetstatus (idx16 house) (idx16 unit) w.state = charOn then cstr "on" else cstr "off"
        let w := w.statusprintf fd (status ++ cstr "\n")
        (0, t, w.sendMessage (some (addr ++ status ++ cstr "\n")))
  else (-1, t, w)

/-- `GETSTATUSSEC`: status of an RF security sensor. -/
def getstatussecCommand (fd : Int) (t : Strtok) (w : World) : Int × Strtok × World :=
  let (rf8bitaddr, rfaddr, t) := getrfaddr t
  if rf8bitaddr < 0 then (-1, t, w)
  else
    let status :=
      if huaGetstatusSec rf8bitaddr rfaddr w.state = 1 then cstr "on" else cstr "off"
    (0, t, w.statusprintf fd (status ++ cstr "\n"))

section
variable (cm15aDecodeRf : Int → Ptr → Nat → World → World)

/-- `RF`: standard RF transmit. -/
def rfCommand (fd : Int) (t : Strtok) (w : World) : Int × Strtok × World :=
  let w := ackOr20 fd w
  let (house, unit, t) := getdeviceaddr t
  if house < 0 then (-1, t, w)
  else
    let (func, t) := getfunc t
    if func < 0 then (-1, t, w)
    else (0, t, (rfTxHouseunitfunc cm15aDecodeRf house unit func w).2)

/-- `RFSEC`: RF security transmit. -/
def rfsecCommand (fd : Int) (t : Strtok) (w : World) : Int × Strtok × World :=
  let w := ackOr20 fd w
  let (rf8bitaddr, rfaddr, t) := getrfaddr t
  if rf8bitaddr < 0 then (-1, t, w)
  else
    let (func, t) := getrffunc rf8bitaddr t
    if func < 0 then (-1, t, w)
    else (0, t, (rfsecTx cm15aDecodeRf rf8bitaddr rfaddr func w).2)

/-- `RFCAM`: RF camera transmit; the unit number is ignored. -/
def rfcamCommand (fd : Int) (t : Strtok) (w : World) : Int × Strtok × World :=
  let w := ackOr20 fd w
  let (house, _, t) := getdeviceaddr t
  if house < 0 then (-1, t, w)
  else
    match nextWord t with
    | (none, t) => (-1, t, w)
    | (some arg1, t) =>
        let rfcamkey := findCamRemoteCommand arg1
        if rfcamkey > 0 then (0, t, rfcamTx cm15aDecodeRf house rfcamkey w)
        else (0, t, w.sockprintf fd (cstr "Invalid command " ++ arg1 ++ cstr "\n"))

/-- The command words and what they run. -/
def runCommand (fd : Int) (command : Text) (t : Strtok) (w : World) : Int × Strtok × World :=
  if command = cstr "PL" then plCommand fd t w
  else if command = cstr "RF" then rfCommand cm15aDecodeRf fd t w
  else if command = cstr "RFSEC" then rfsecCommand cm15aDecodeRf fd t w
  else if command = cstr "RFCAM" then rfcamCommand cm15aDecodeRf fd t w
  else if command = cstr "PT" then ptCommand fd t w
  else if command = cstr "RFTOPL" then rftoplCommand fd t w
  else if command = cstr "RFTORF" then rftorfCommand fd t w
  else if command = cstr "ST" then stCommand fd t w
  else if command = cstr "GETSTATUS" then getstatusCommand fd t w
  else if command = cstr "GETSTATUSSEC" then getstatussecCommand fd t w
  else (-1, t, w) -- unknown command

/-- `processcommandline`, given the RF decoder: the return value, the buffer as
the call leaves it, and the new state. -/
def processcommandlineWith (fd : Int) (aLine : Text) (w : World) : Int × Strtok × World :=
  let aLine := strupper aLine
  if aLine = cstr "<POLICY-FILE-REQUEST/>" then
    (0, Strtok.start aLine, w.emit (.send fd domainpolicy))
  else
    match nextWord (Strtok.start aLine) with
    | (none, t) => (0, t, w)
    | (some command, t) => runCommand cm15aDecodeRf fd command t w

end

/-! ## Tying the knot -/

/-- `cm15a_decode_rf`.  The parser it calls for the bridge only sees `PL`
commands, which decode no RF packet. -/
def cm15aDecodeRf : Int → Ptr → Nat → World → World :=
  cm15aDecodeRfWith fun fd aLine w =>
    (processcommandlineWith (fun _ _ _ w => w) fd aLine w).2.2

/-- `processcommandline`. -/
def processcommandline : Int → Text → World → Int × Strtok × World :=
  processcommandlineWith cm15aDecodeRf

/-- `cm15a_decode`: a packet from the controller.  A CM19A sends RF packets
without the leading `5D`. -/
def cm15aDecode (fd : Int) (buf : Ptr) (len : Nat) (w : World) : World :=
  if len < 4 then w
  else
    let p : Ptr := if w.cm19a then
        fun i => if i = 0 then 0x5d else if i ≤ len then buf (i - 1) else w.junk i
      else buf
    let len := if w.cm19a then len + 1 else len
    let w := if w.rawData then w.mhSockhexdump fd p len else w
    if p 0 = 0x5a then cm15aDecodePlc fd p len w
    else if p 0 = 0x5d then cm15aDecodeRf fd p len w
    else w

end Mochad

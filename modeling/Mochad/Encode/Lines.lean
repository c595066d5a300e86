import Mochad.Encode.Command
import Mochad.Clients

/-!
# Mochad.Encode.Lines

`cm15a_encode`: the bytes read from a client are collected in one static
buffer of 80 characters until a line is complete.
-/

namespace Mochad

open CString

/-- `sizeof(remainder)`. -/
def remainderSize : Nat := 80

/-- `\n`, `\r` and NUL end a line. -/
def isLineEnd (b : UInt8) : Bool := b == 10 || b == 13 || b == 0

namespace World

/-- `*remptr = b` with `remptr == remainder + i`.  From index 80 on the program
stores behind the array, in other variables; here such a store has no effect but
its index (`Mochad.LineBuffer` says when there is one), so that what the buffer
and the other variables hold is the program's while the lines, with their end,
fit in 80 bytes. -/
@[simps] def storeRemainder (i : Nat) (b : UInt8) (w : World) : World :=
  { w with
    remainder := w.remainder.set i b
    accesses := w.accesses ++ [⟨.remainder, i⟩] }

/-- Pass the string at the start of the buffer to `processcommandline`, which
upper-cases it and cuts it into words in place. -/
def runRemainder (fd : Int) (w : World) : World :=
  let aLine := cString w.remainder
  if aLine ≠ [] then
    let w := { w with lines := w.lines ++ [(fd, aLine)] }
    let (_, t, w) := processcommandline fd aLine w
    let w := { w with remainder := t.buffer ++ w.remainder.drop t.buffer.length }
    if w.or20client fd then (w.delClient fd).2 else w
  else w

end World

/-- The loop of `cm15a_encode` with the write position `remptr - remainder`. -/
def encodeLoop (fd : Int) : List UInt8 → Nat → World → Nat × World
  | [], remptr, w => (remptr, w)
  | b :: buf, remptr, w =>
      let w := w.storeRemainder remptr b
      if isLineEnd b then encodeLoop fd buf 0 ((w.storeRemainder remptr 0).runRemainder fd)
      else encodeLoop fd buf (remptr + 1) w

/-- `cm15a_encode`. -/
def cm15aEncode (fd : Int) (buf : List UInt8) (w : World) : World :=
  let (remptr, w) := encodeLoop fd buf w.remlen w
  { w with remlen := remptr }

end Mochad

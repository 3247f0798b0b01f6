import Reckon.Pool
import Reckon.Session
import Mathlib.Logic.Relation

set_option autoImplicit false

/-!
# A command-line run: the client and the server on one results file

A command-line run starts the server, then the client, and names the same results file to both.
Each opens the file for writing, which empties it, and writes through a handle of its own, at
the handle's own offset. The server opens the file when the client connects and writes each line
as it collects a worker; once every worker is collected it reads the file back and sends it. The
client opens the file once its request is sent, and writes each piece of the reply as it arrives.

The two processes run side by side, so the run is a transition system, `Exchange.Step`, with the
server's pool of workers inside it. The client may open the file at any point after its request:
before the server's first line, between two lines, or after the server has read the file back. A
write at an offset past the end of the file fills the gap with zero bytes.
-/

namespace Reckon

/-- The bytes of a file after `d` is written at offset `o`: a gap between the end of the file and
`o` is filled with zero bytes, and writing nothing changes nothing. -/
def writeAt (f : List UInt8) (o : Nat) (d : List UInt8) : List UInt8 :=
  if d = [] then f
  else f.take o ++ List.replicate (o - f.length) 0 ++ d ++ f.drop (o + d.length)

example : writeAt [1, 2, 3] 1 [7] = [1, 7, 3] := by decide
example : writeAt [1, 2] 4 [7] = [1, 2, 0, 0, 7] := by decide

def linesBytes (ls : List String) : List UInt8 := ls.flatMap fun l => l.toUTF8.data.toList

inductive Client where
  | sending
  | requested
  | reading (got : Nat)
  | done
  | failed (e : Text.Utf8Error)

inductive Server where
  | listening
  | receiving
  | pooling (pool : Pool) (flushed : Nat) (offset : Nat)
  | closed (pool : Pool) (reply : List UInt8)

/-- A command-line run: the results file, and where each process stands. -/
structure Exchange where
  file : List UInt8
  client : Client
  server : Server

namespace Exchange

def start (old : List UInt8) : Exchange := ⟨old, .sending, .listening⟩

def piece (reply : List UInt8) (got k : Nat) : ByteArray := ((reply.drop got).take k).toByteArray

/-- A step of the run, on a machine `p`, for a client whose input file holds `text`. -/
inductive Step (p : Platform) (text : String) : Exchange → Exchange → Prop where
  | accept {e : Exchange} (hs : e.server = .listening) :
      Step p text e { e with file := [], server := .receiving }
  | shutdown {e : Exchange} (hc : e.client = .sending) : Step p text e { e with client := .requested }
  | receive {e : Exchange} {t : String} (hs : e.server = .receiving) (hc : e.client ≠ .sending)
      (ht : Batch.receive text.toUTF8 = .ok t) :
      Step p text e { e with server := .pooling (Pool.start p (Batch.jobs t)) 0 0 }
  | create {e : Exchange} (hc : e.client = .requested) :
      Step p text e { e with file := [], client := .reading 0 }
  | pool {e : Exchange} {s t : Pool} {k o : Nat} (hs : e.server = .pooling s k o)
      (hk : k = s.written.length) (h : Pool.Step p s t) :
      Step p text e { e with server := .pooling t k o }
  | flush {e : Exchange} {s : Pool} {k o : Nat} {l : String} (hs : e.server = .pooling s k o)
      (hl : s.written[k]? = some l) :
      Step p text e { e with file := writeAt e.file o l.toUTF8.data.toList,
                             server := .pooling s (k + 1) (o + l.utf8ByteSize) }
  | reply {e : Exchange} {s : Pool} {k o : Nat} (hs : e.server = .pooling s k o)
      (hk : k = s.written.length) (hsend : s.loop = .send) :
      Step p text e { e with server := .closed s e.file }
  | recv {e : Exchange} {s : Pool} {r : List UInt8} {got k : Nat} {t : String}
      (hc : e.client = .reading got) (hs : e.server = .closed s r) (hk : 0 < k)
      (hsize : k ≤ Session.pieceSize) (hleft : got + k ≤ r.length)
      (ht : Text.decodeUtf8 (piece r got k) = .ok t) :
      Step p text e { e with file := writeAt e.file got t.toUTF8.data.toList,
                             client := .reading (got + k) }
  | fault {e : Exchange} {s : Pool} {r : List UInt8} {got k : Nat} {err : Text.Utf8Error}
      (hc : e.client = .reading got) (hs : e.server = .closed s r) (hk : 0 < k)
      (hsize : k ≤ Session.pieceSize) (hleft : got + k ≤ r.length)
      (herr : Text.decodeUtf8 (piece r got k) = .error err) :
      Step p text e { e with client := .failed err }
  | finish {e : Exchange} {s : Pool} {r : List UInt8} {got : Nat} (hc : e.client = .reading got)
      (hs : e.server = .closed s r) (hend : got = r.length) :
      Step p text e { e with client := .done }

/-- The states a run reaches from a results file that held `old`. -/
def Reachable (p : Platform) (text : String) (old : List UInt8) (e : Exchange) : Prop :=
  Relation.ReflTransGen (Step p text) (start old) e

end Exchange

end Reckon

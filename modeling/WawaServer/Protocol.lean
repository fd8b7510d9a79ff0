import WawaServer.Lib.Buffer

/-!
# The wire protocol

`protocol.h`: the 12-byte `Head`, the 1400-byte `Body` and the packets built from them. A
`Pkg` is its 1412 bytes of memory, because the server receives into it and sends out of it
at byte offsets; the fields are read and written through `Buffer.word`.

An `int` field is kept as its 32-bit pattern. Descriptors that `accept` returns are below
`2 ^ 31`, where the pattern is the value.
-/

namespace WawaServer

def bufSize : ℕ := 1400

abbrev channelMax : ℕ := 256

def sizeofHead : ℕ := 12

abbrev sizeofPkg : ℕ := 1412

/-- `sizeof` of a body that is one `int`. -/
def sizeofInt : ℕ := 4

/-- `sizeof(RegisterClientRes)`: `result` and `fd[8]`. -/
def sizeofRegisterClientRes : ℕ := 36

inductive ClientType
  | raspi
  | remote
deriving DecidableEq, Repr

def ClientType.code : ClientType → ℕ
  | raspi => 0
  | remote => 1

inductive PkgCmdType
  | registerClientReq
  | registerClientRes
  | streamDataNtf
  | chooseServerReq
  | chooseServerRes
  | startSendDataNtf
  | restartClientNtf
deriving DecidableEq, Repr

def PkgCmdType.code : PkgCmdType → ℕ
  | registerClientReq => 1
  | registerClientRes => 2
  | streamDataNtf => 3
  | chooseServerReq => 4
  | chooseServerRes => 5
  | startSendDataNtf => 6
  | restartClientNtf => 7

abbrev Pkg := Buffer sizeofPkg

namespace Pkg

/-- `memset` of head and body. -/
def construct : Pkg := Buffer.zero

/-! ## `stHead` -/

def cmd (p : Pkg) : ℕ := Buffer.word p 0

def len (p : Pkg) : ℕ := Buffer.word p 4

def fd (p : Pkg) : ℕ := Buffer.word p 8

def setCmd (p : Pkg) (c : PkgCmdType) : Pkg := Buffer.setWord p 0 c.code

def setLen (p : Pkg) (v : ℕ) : Pkg := Buffer.setWord p 4 v

def setFd (p : Pkg) (v : ℕ) : Pkg := Buffer.setWord p 8 v

/-! ## `stBody`

The members of the union start at offset 12. -/

def clientType (p : Pkg) : ℕ := Buffer.word p 12

def chooseFd (p : Pkg) : ℕ := Buffer.word p 12

def result (p : Pkg) : ℕ := Buffer.word p 12

/-- `stRegisterClientRes.fd[i]` -/
def raspiFd (p : Pkg) (i : ℕ) : ℕ := Buffer.word p (16 + 4 * i)

def setResult (p : Pkg) (v : ℕ) : Pkg := Buffer.setWord p 12 v

def setRaspiFd (p : Pkg) (i v : ℕ) : Pkg := Buffer.setWord p (16 + 4 * i) v

/-- `stStartSendDataNtf.reserve` -/
def reserve (p : Pkg) : ℕ := Buffer.word p 12

/-- `stStartSendDataNtf.reserve` and `stRestartClientNtf.Reserve` -/
def setReserve (p : Pkg) (v : ℕ) : Pkg := Buffer.setWord p 12 v

/-- The bytes of a frame as a client writes it. -/
def encode (cmd : PkgCmdType) (fd : ℕ) (body : List UInt8) : List UInt8 :=
  Buffer.wordBytes cmd.code ++ Buffer.wordBytes body.length ++ Buffer.wordBytes fd ++ body

/-- The packet is a START. -/
def IsStart (p : Pkg) : Prop := p.cmd = PkgCmdType.startSendDataNtf.code

instance (p : Pkg) : Decidable p.IsStart := inferInstanceAs (Decidable (_ = _))

/-- `stHead.len + sizeof(stHead)`, the length of the frame. -/
def total (p : Pkg) : ℕ := p.len + sizeofHead

/-- The bytes of the frame: the head and `stHead.len` bytes of the body. -/
def frame (p : Pkg) : List UInt8 := Buffer.slice p 0 p.total

end Pkg

end WawaServer

import WawaServer.State

/-!
# Packet handlers

`handler.cpp`, and the two functions of `server.cpp` it calls (`free_channel` and
`check_break_fd`). A function returns the state it leaves and, where a caller can see it, its
return code. `send`'s answers come from `Globals.results`.
-/

namespace WawaServer
namespace Server

def freeChannel (s : Server) (c : Slot) : Server :=
  let s := s.enter (.freeChannel c)
  let i := (s.channel c).idx
  let s := s.setStatus i .nonActive
  let s := s.setRecvLen i 0
  let s := s.setSendLen i 0
  let s := s.stopRecv i
  let s := s.stopSend i
  let s := s.setCut i none
  let fd := (s.channel i).fd
  let s := { s with channelMap := s.channelMap.erase fd }
  s.close fd

def response (s : Server) (pkg : Pkg) : Server × Int :=
  let s := s.enter (.response pkg)
  match s.lookup pkg.fd with
  | none => (s, -1)
  | some c =>
    let s := s.setSendLen c 0
    let len := pkg.len + sizeofHead
    match s.send pkg.fd pkg 0 len with
    | (s, .again) => (s.startSend c, 0)
    | (s, .error) => (s.freeChannel c, 0)
    | (s, .sent k) =>
      if k < len then
        ((s.setSendLen c ((s.channel c).sendCtx.len + k)).startSend c, 0)
      else
        (s.startRecv c, 0)

/-- The packet `check_break_fd` builds on its stack. -/
def restartPkg (fd : ℕ) : Pkg :=
  ((((Pkg.construct.setFd fd).setCmd .restartClientNtf).setLen sizeofInt).setReserve 1)

def checkBreakFd (s : Server) (type : ClientType) (fd : ℕ) : Server :=
  let s := s.enter (.checkBreakFd type fd)
  if type = .remote then
    match s.bridgeMap[fd]? with
    | none => s
    | some r =>
      let s := (s.response (restartPkg (s.channel r).fd)).1
      let s := s.setStatus r .active
      { s with bridgeMap := s.bridgeMap.erase fd }
  else s

/-- The bytes of `dst` after `memcpy(&dst, &pkg, pkg.stHead.len + sizeof(pkg.stHead))`. -/
def copyFrame (dst pkg : Pkg) : Pkg := Buffer.write dst 0 pkg.frame

/-- Use an iterator found at `fd`: undefined once the element is erased. -/
def useIterator (s : Server) (fd : ℕ) : Server :=
  match s.channelMap[fd]? with
  | none => s.fail .erasedIterator
  | some _ => s

def dispatch (s : Server) (pkg : Pkg) (srcfd dstfd : ℕ) : Server × Int :=
  let s := s.enter (.dispatch pkg srcfd dstfd)
  match s.lookup srcfd with
  | none => (s, -1)
  | some src =>
    match s.lookup dstfd with
    | none => (s, -2)
    | some dst =>
      if pkg.len > bufSize then (s, -3)
      else
        let s := s.setSendPkg dst (copyFrame (s.channel dst).sendCtx.pkg pkg)
        let s := s.setSendLen dst 0
        let len := pkg.len + sizeofHead
        match s.send dstfd pkg 0 len with
        | (s, .again) =>
          let s := s.stopRecv src
          let s := s.startSend dst
          let s := s.setSrcChannel dst src
          (s.setCut dst (some src), 0)
        | (s, .error) =>
          let s := s.checkBreakFd (s.channel dst).type (s.channel dst).fd
          let s := s.useIterator dstfd
          (s.freeChannel dst, 0)
        | (s, .sent k) =>
          if k < len then
            let s := s.setSendLen dst ((s.channel dst).sendCtx.len + k)
            let s := s.stopRecv src
            let s := s.startSend dst
            let s := s.setSrcChannel dst src
            (s.setCut dst (some src), 0)
          else
            let s := s.stopSend dst
            (s.startRecv src, 0)

/-- Head and result of the `PKG_REGISTER_CLIENT_RES` both branches build in place. -/
def registerRes (p : Pkg) (fd : ℕ) : Pkg :=
  ((((p.setCmd .registerClientRes).setFd fd).setLen sizeofRegisterClientRes).setResult 0)

/-- The loop over `channel_map` that lists the raspis from `fd[i]` on. It gives up, with
`false`, when `fd[7]` has been written. -/
def listRaspis (s : Server) (c : Slot) : ℕ → List (ℕ × Slot) → Server × Bool
  | _, [] => (s, true)
  | i, (_, d) :: rest =>
    if (s.channel d).status = .active ∧ (s.channel d).type = .raspi then
      let s := s.setSendPkg c ((s.channel c).sendCtx.pkg.setRaspiFd i (s.channel d).fd)
      if 8 ≤ i + 1 then (s, false) else listRaspis s c (i + 1) rest
    else listRaspis s c i rest

def handleRegisterClientReq (s : Server) (pkg : Pkg) : Server × Int :=
  let s := s.enter (.handleRegisterClientReq pkg)
  match s.lookup pkg.fd with
  | none => (s, -1)
  | some c =>
    if pkg.clientType = ClientType.raspi.code then
      let s := s.setType c .raspi
      let s := s.setSendPkg c (registerRes (s.channel c).sendCtx.pkg pkg.fd)
      ((s.response (s.channel c).sendCtx.pkg).1, 0)
    else if pkg.clientType = ClientType.remote.code then
      let s := s.setType c .remote
      let s := s.setSendPkg c (registerRes (s.channel c).sendCtx.pkg pkg.fd)
      match s.listRaspis c 0 s.channelMap.toList with
      | (s, false) => (s, -1)
      | (s, true) => ((s.response (s.channel c).sendCtx.pkg).1, 0)
    else (s, -1)

def chooseRes (p : Pkg) (fd : ℕ) : Pkg :=
  ((((p.setCmd .chooseServerRes).setFd fd).setLen sizeofInt).setResult 0)

/-- `stHead.fd` is left as it is. -/
def startNtf (p : Pkg) (remotefd : ℕ) : Pkg :=
  (((p.setCmd .startSendDataNtf).setLen sizeofInt).setReserve remotefd)

def handleChooseServerReq (s : Server) (pkg : Pkg) : Server × Int :=
  let s := s.enter (.handleChooseServerReq pkg)
  let remotefd := pkg.fd
  let raspifd := pkg.chooseFd
  match s.lookup remotefd with
  | none => (s, -1)
  | some remote =>
    match s.lookup raspifd with
    | none => (s, -1)
    | some raspi =>
      let s := s.setSendPkg remote (chooseRes (s.channel remote).sendCtx.pkg remotefd)
      let s := (s.response (s.channel remote).sendCtx.pkg).1
      let s := s.useIterator raspifd
      let s := s.setSendPkg raspi (startNtf (s.channel raspi).sendCtx.pkg remotefd)
      let s := (s.response (s.channel raspi).sendCtx.pkg).1
      let s := s.useIterator raspifd
      ({ s with bridgeMap := s.bridgeMap.insertIfNew remotefd raspi }, 0)

/-- `handler_map`, as `inithandler` fills it. -/
def handle (s : Server) (pkg : Pkg) : Server × Int :=
  let s := s.enter (.handle pkg)
  if pkg.cmd = PkgCmdType.registerClientReq.code then s.handleRegisterClientReq pkg
  else if pkg.cmd = PkgCmdType.chooseServerReq.code then s.handleChooseServerReq pkg
  else (s, 0)

end Server
end WawaServer

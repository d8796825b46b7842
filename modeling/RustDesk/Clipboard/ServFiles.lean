import RustDesk.Lib.Transition
import RustDesk.Net.Io

/-!
# Serving the files of the clipboard

A copy makes a list of files, and a peer that was sent the list asks for sizes and ranges of its
files by their position. A list that was sent is kept when the next copy replaces it, so that its
peers go on to read from it; four such lists are kept at most.
-/

namespace RustDesk.Clipboard

inductive CliprdrError where
  | invalidRequest (description : String)
  | fileError (path : String)
  deriving DecidableEq

inductive ClipboardFile where
  | files (files : List (String × ℕ))
  | fileContentsResponse (msgFlags streamId : ℤ) (requestedData : Bytes)
  deriving DecidableEq

/-- An open file, and how far it has been read. -/
structure Handle where
  data : Bytes
  pos : ℕ

structure LocalFile where
  path : String
  handle : Option Handle
  offset : ℕ
  name : String
  size : ℕ
  lastWriteTime : ℕ
  isDir : Bool

/-- What the system answers during a call. -/
structure Env where
  /-- the files that can be opened, and read from for the first time -/
  disk : String → Option Bytes
  seeks : Bool
  reads : Bool
  /-- length and time of a file that is open -/
  metadata : String → Option (ℕ × ℕ)
  isFile : String → Bool

/-! ### Files -/

namespace LocalFile

variable (env : Env) (f : LocalFile)

def loadHandle : Except CliprdrError LocalFile :=
  if ¬f.isDir ∧ f.handle.isNone then
    match env.disk f.path with
    | some data => .ok { f with handle := some ⟨data, 0⟩ }
    | none => .error (.fileError f.path)
  else .ok f

/-- `seek`, if it is called for. -/
def seek (h : Handle) (offset : ℕ) : Option Handle :=
  if offset = f.offset then some h else if env.seeks then some { h with pos := offset } else none

/-- `read_exact`; nothing is read for an empty buffer. -/
def readExact (h : Handle) (len : ℕ) : Option (Bytes × Handle) :=
  if len = 0 ∨ env.reads ∧ h.pos + len ≤ h.data.length then
    some ((h.data.drop h.pos).take len, { h with pos := h.pos + len })
  else none

def invalidateHandle : LocalFile := { f with offset := 0, handle := none }

/-- `read_exact_at`, once there is a handle. -/
def readAt (h : Handle) (len offset : ℕ) : Except CliprdrError Bytes × LocalFile :=
  match (f.seek env h offset).bind (readExact env · len) with
  | none => (.error (.fileError f.path), f.invalidateHandle)
  | some (buf, h) =>
    (.ok buf, if offset + len ≥ f.size then f.invalidateHandle
      else { f with offset := offset + len, handle := some h })

def readExactAt (len offset : ℕ) : Except CliprdrError Bytes × LocalFile :=
  match f.loadHandle env with
  | .error e => (.error e, f)
  | .ok f =>
    match f.handle with
    | none => (.error (.fileError f.path), f)
    | some h => f.readAt env h len offset

end LocalFile

/-! ### Lists -/

def usizeMax : ℕ := 2 ^ 64 - 1

def maxRangeRead : ℕ := 16 * 1024 * 1024

def maxRetiredClipFiles : ℕ := 4

structure FileSig where
  size : ℕ
  mtime : Option ℕ
  isDir : Bool
  deriving DecidableEq

structure ClipFiles where
  files : List String := []
  sigs : List FileSig := []
  fileList : List LocalFile := []
  firstFileIndex : ℕ := 0
  filesPdu : Bytes := []
  id : UInt32 := 0
  servedTo : List ℤ := []
  /-- which of the lists there have been it is; the code has no such number -/
  number : ℕ := 0

inductive FileContentsRequest where
  | size (streamId : ℤ) (fileIdx : ℕ)
  | range (streamId : ℤ) (fileIdx offset length : ℕ)

def fileListId (pdu : Bytes) : UInt32 :=
  pdu.foldl (fun id byte => (id ^^^ byte.toUInt32) * 0x01000193) 0x811c9dc5

/-- What `construct_file_list` and `build_file_list_pdu` make of a selection. -/
structure Copy where
  fileList : List LocalFile
  isDir : String → Bool
  filesPdu : Bytes
  some_file : fileList ≠ []
  unopened : ∀ f ∈ fileList, f.handle = none ∧ f.offset = 0
  described : filesPdu ≠ []

namespace ClipFiles

variable (env : Env) (c : ClipFiles)

def clear (number : ℕ) : ClipFiles := { firstFileIndex := usizeMax, number := number }

def build (files : List String) (sigs : List FileSig) (copy : Copy) (number : ℕ) : ClipFiles where
  files := files
  sigs := sigs
  fileList := copy.fileList
  firstFileIndex := (copy.fileList.findIdx? fun f => !copy.isDir f.path).getD usizeMax
  filesPdu := copy.filesPdu
  id := fileListId copy.filesPdu
  number := number

def releaseHandles : ClipFiles :=
  { c with
    fileList := c.fileList.map fun f => if f.offset = 0 then { f with handle := none } else f }

/-- The list with another file at a position. -/
def withFile (i : ℕ) (f : LocalFile) : ClipFiles := { c with fileList := c.fileList.set i f }

def checkRetiredFile : FileContentsRequest → Except CliprdrError Unit × ClipFiles
  | .size _ _ => (.ok (), c)
  | .range _ i _ _ =>
    match c.fileList[i]? with
    | none => (.ok (), c)
    | some f =>
      if f.isDir then (.ok (), c)
      else
        match f.loadHandle env with
        | .error e => (.error e, c)
        | .ok f =>
          (if f.handle.isSome ∧ env.metadata f.path = some (f.size, f.lastWriteTime) then .ok ()
            else .error (.invalidRequest s!"file {f.name} changed since its list was sent"),
            c.withFile i f)

def getFilesForAudit : FileContentsRequest → Option ClipboardFile
  | .size _ _ => none
  | .range _ i offset _ =>
    if i = c.firstFileIndex ∧ offset = 0 then
      let files := c.fileList.filterMap fun f =>
        if env.isFile f.path then some (f.path, f.size) else none
      if files.isEmpty then none else some (.files files)
    else none

/-- The next file that is no directory is opened, if it can be. -/
def preload : List LocalFile → List LocalFile
  | [] => []
  | f :: fs => if f.isDir then f :: preload fs else (f.loadHandle env).toOption.getD f :: fs

/-- The end of a call that was answered. -/
def preloaded (i : ℕ) : ClipFiles :=
  { c with fileList := c.fileList.take (i + 1) ++ preload env (c.fileList.drop (i + 1)) }

def toLeBytes (n : ℕ) : Bytes := (List.range 8).map fun i => UInt8.ofNat (n / 256 ^ i)

def serveFileContents (connId : ℤ) :
    FileContentsRequest → Except CliprdrError ClipboardFile × ClipFiles
  | .size streamId i =>
    match c.fileList[i]? with
    | none =>
      (.error (.invalidRequest s!"invalid file index {i} requested from conn: {connId}"), c)
    | some f => (.ok (.fileContentsResponse 0x1 streamId (toLeBytes f.size)), c.preloaded env i)
  | .range streamId i offset length =>
    match c.fileList[i]? with
    | none =>
      (.error (.invalidRequest s!"invalid file index {i} requested from conn: {connId}"), c)
    | some f =>
      if offset > f.size then
        (.error (.invalidRequest s!"invalid reading offset requested from conn: {connId}"), c)
      else
        let readSize := min length (f.size - offset)
        if readSize > maxRangeRead then
          (.error (.invalidRequest (s!"file contents request of {readSize} bytes exceeds the " ++
            s!"{maxRangeRead} byte limit, conn: {connId}")), c)
        else
          match f.readExactAt env readSize offset with
          | (.error e, f) => (.error e, c.withFile i f)
          | (.ok buf, f) =>
            (.ok (.fileContentsResponse 0x1 streamId buf), (c.withFile i f).preloaded env i)

end ClipFiles

/-! ### The store -/

/-- A `FileContentsRequest` as it is sent; its fields are 32 bits wide. -/
structure Wire where
  streamId : ℤ
  listIndex : BitVec 32
  dwFlags : ℤ
  nPositionLow : BitVec 32
  nPositionHigh : BitVec 32
  cbRequested : BitVec 32
  clipDataId : Option UInt32

/-- The offset of a request, from its two halves. -/
def Wire.offset (rq : Wire) : ℕ :=
  (rq.nPositionHigh.signExtend 64 <<< 32 ||| rq.nPositionLow.setWidth 64).toNat

def Wire.decode (rq : Wire) : Except CliprdrError FileContentsRequest :=
  let fileIdx := (rq.listIndex.signExtend 64).toNat
  if rq.dwFlags = 0x1 then .ok (.size rq.streamId fileIdx)
  else if rq.dwFlags = 0x2 then .ok (.range rq.streamId fileIdx rq.offset rq.cbRequested.toNat)
  else .error (.invalidRequest s!"got invalid FileContentsRequest, dw_flats: {rq.dwFlags}")

/-- The lists, newest first, and what has happened with them. -/
structure Store where
  current : ClipFiles
  retired : List ClipFiles
  /-- how many lists there have been -/
  copies : ℕ
  /-- the lists that connections were sent, by their numbers, newest first -/
  sent : List (ℤ × ℕ)
  /-- the lists of which an audit record went out, and of which contents were delivered -/
  audited : List (ℤ × ℕ)
  delivered : List (ℤ × ℕ)

namespace Store

variable (s : Store)

def start : Store := ⟨{}, [], 0, [], [], []⟩

def lists : List ClipFiles := s.current :: s.retired

/-- The list a request reads from, with its position among all of them. -/
def selectClipFiles (connId : ℤ) : Option UInt32 → Option (ClipFiles × ℕ)
  | some id =>
    if s.current.id = id then some (s.current, 0)
    else (s.retired.zipIdx 1).find? fun x => x.1.id = id ∧ connId ∈ x.1.servedTo
  | none => (s.lists.zipIdx.find? fun x => connId ∈ x.1.servedTo).or (some (s.current, 0))

def put : ℕ → ClipFiles → Store
  | 0, c => { s with current := c }
  | k + 1, c => { s with retired := s.retired.set k c }

/-- The list that is replaced, if it was sent to anybody. -/
def retireIfServed (replaced : ClipFiles) (retired : List ClipFiles) : List ClipFiles :=
  if replaced.servedTo = [] then retired
  else replaced.releaseHandles ::
    if retired.length = maxRetiredClipFiles then retired.dropLast else retired

def syncFiles (files : List String) (sigs : List FileSig) (copy : Option Copy) : Store :=
  if s.current.files = files ∧ s.current.sigs = sigs ∧ ¬sigs.any FileSig.isDir then s
  else
    match copy with
    | none => s
    | some copy =>
      { s with
        current := .build files sigs copy (s.copies + 1)
        retired := retireIfServed s.current s.retired
        copies := s.copies + 1 }

def clearFiles : Store :=
  { s with current := .clear (s.copies + 1), retired := [], copies := s.copies + 1 }

def getFileListPdu (connId : ℤ) : Store :=
  if s.current.filesPdu = [] then s
  else
    { s with
      current :=
        if connId ∈ s.current.servedTo then s.current
        else { s.current with servedTo := s.current.servedTo ++ [connId] }
      sent := (connId, s.current.number) :: s.sent }

/-- What a request does with its list. -/
def readList (c : ClipFiles) (retired : Bool) (connId : ℤ) (env : Env) (fcr : FileContentsRequest) :
    List (Except CliprdrError ClipboardFile) × ClipFiles :=
  match if retired then c.checkRetiredFile env fcr else (.ok (), c) with
  | (.error e, c) => ([.error e], c)
  | (.ok _, c) =>
    let (res, c') := c.serveFileContents env connId fcr
    ((c.getFilesForAudit env fcr).toList.map .ok ++ [res], c')

def readFileContents (connId : ℤ) (rq : Wire) (env : Env) :
    List (Except CliprdrError ClipboardFile) × Store :=
  match rq.decode with
  | .error e => ([.error e], s)
  | .ok fcr =>
    match s.selectClipFiles connId rq.clipDataId with
    | none =>
      let list := rq.clipDataId.elim "None" fun id => s!"Some({id.toInt32})"
      ([.error (.invalidRequest s!"file list {list} is not available to conn: {connId}")], s)
    | some (c, k) =>
      let (out, c') := readList c (k ≠ 0) connId env fcr
      (out, s.put k c')

end Store

/-- Whether there is a record of files, and a response with something in it, in what is sent. -/
def isAudit : Except CliprdrError ClipboardFile → Bool
  | .ok (.files _) => true
  | _ => false

def isDelivery : Except CliprdrError ClipboardFile → Bool
  | .ok (.fileContentsResponse _ _ data) => data ≠ []
  | _ => false

inductive Act where
  | sync (files : List String) (sigs : List FileSig) (copy : Option Copy)
  | clear
  | getFileListPdu (connId : ℤ)
  | read (connId : ℤ) (rq : Wire) (env : Env)

/-- The list a request is answered from. -/
def Store.source (s : Store) (connId : ℤ) (rq : Wire) : Option ClipFiles :=
  (s.selectClipFiles connId rq.clipDataId).map Prod.fst

def Store.step (s : Store) : Act → Option Store
  | .sync files sigs copy => s.syncFiles files sigs copy
  | .clear => s.clearFiles
  | .getFileListPdu connId => s.getFileListPdu connId
  | .read connId rq env =>
    let (out, s') := s.readFileContents connId rq env
    let noted := (s.source connId rq).toList.map fun c => (connId, c.number)
    some { s' with
      audited := (if out.any isAudit then noted else []) ++ s.audited
      delivered := (if rq.dwFlags = 0x2 ∧ out.any isDelivery then noted else []) ++ s.delivered }

def served : LTS Store Act where
  init s := s = .start
  step := Store.step

end RustDesk.Clipboard

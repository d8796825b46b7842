import RustDesk.Clipboard.ServFiles

/-!
# Which list a request reads from

The lists that are held are numbered downwards, and each knows the connections it was sent to. A
list that was sent is either held or older than all that are. So a request that names no list finds
the list that its connection was sent last, unless that one is gone, and one that names a list finds
one that its connection was sent, unless it names the current one. Of a list that is read from its
beginning there is a record.
-/

namespace RustDesk.Clipboard

/-- What the choice of a list depends on. -/
def ClipFiles.header (c : ClipFiles) : ℕ × List ℤ := (c.number, c.servedTo)

/-- The same list, but for the files that are open. -/
structure ClipFiles.Same (c c' : ClipFiles) : Prop where
  header : c'.header = c.header
  first : c'.firstFileIndex = c.firstFileIndex
  paths : c'.fileList.map LocalFile.path = c.fileList.map LocalFile.path

namespace Store

variable {s s' : Store} {connId : ℤ} {rq : Wire} {env : Env} {c c' : ClipFiles} {k n : ℕ}

def heads (s : Store) : List (ℕ × List ℤ) := s.lists.map ClipFiles.header

/-! ### What reading changes -/

lemma loadHandle_path {f f' : LocalFile} (h : f.loadHandle env = .ok f') : f'.path = f.path := by
  unfold LocalFile.loadHandle at h
  split_ifs at h
  · split at h <;> cases h
    rfl
  · cases h
    rfl

lemma same_checkRetiredFile (c : ClipFiles) (env : Env) (fcr : FileContentsRequest) :
    c.Same (c.checkRetiredFile env fcr).2 := by
  have hsame : c.Same c := ⟨rfl, rfl, rfl⟩
  cases fcr with
  | size => exact hsame
  | range streamId i offset length =>
    simp only [ClipFiles.checkRetiredFile]
    split
    · exact hsame
    next f hf =>
      split_ifs
      · exact hsame
      split
      · exact hsame
      next f' hload =>
        refine ⟨rfl, rfl, ?_⟩
        obtain ⟨hi, rfl⟩ := List.getElem?_eq_some_iff.mp hf
        rw [ClipFiles.withFile, List.map_set, loadHandle_path hload,
          ← List.getElem_map LocalFile.path (h := by simpa using hi), List.set_getElem_self]

/-- What comes of a request, once its file has been looked at if the list is retired. -/
lemma readList_cases (c : ClipFiles) (retired : Bool) (connId : ℤ) (env : Env)
    (fcr : FileContentsRequest) : ∃ c₁, c.Same c₁ ∧
      ((∃ e, readList c retired connId env fcr = ([.error e], c₁)) ∨
        readList c retired connId env fcr =
          ((c₁.getFilesForAudit env fcr).toList.map .ok ++
              [(c₁.serveFileContents env connId fcr).1],
            (c₁.serveFileContents env connId fcr).2)) := by
  have hsame : c.Same (if retired then c.checkRetiredFile env fcr else (.ok (), c)).2 := by
    split_ifs
    · exact same_checkRetiredFile c env fcr
    · exact ⟨rfl, rfl, rfl⟩
  refine ⟨_, hsame, ?_⟩
  rw [readList]
  split
  case h_1 e c₁ heq => exact .inl ⟨e, by rw [heq]⟩
  case h_2 c₁ heq => exact .inr (by rw [heq])

lemma header_serveFileContents (c : ClipFiles) (env : Env) (fcr : FileContentsRequest) :
    (c.serveFileContents env connId fcr).2.header = c.header := by
  cases fcr with
  | size => simp only [ClipFiles.serveFileContents]; split <;> rfl
  | range =>
    simp only [ClipFiles.serveFileContents]
    split
    · rfl
    · split_ifs
      · rfl
      · rfl
      · split <;> rfl

lemma header_readList (c : ClipFiles) (retired : Bool) (env : Env) (fcr : FileContentsRequest) :
    (readList c retired connId env fcr).2.header = c.header := by
  obtain ⟨c₁, hsame, ⟨e, heq⟩ | heq⟩ := readList_cases c retired connId env fcr <;> rw [heq]
  · exact hsame.header
  · exact (header_serveFileContents c₁ env fcr).trans hsame.header

lemma heads_put (hc : s.lists[k]? = some c) (h : c'.header = c.header) :
    (s.put k c').heads = s.heads := by
  cases k with
  | zero =>
    obtain rfl : s.current = c := Option.some.inj hc
    simp [heads, lists, put, h]
  | succ k =>
    have hget : (s.retired.map ClipFiles.header)[k]? = some c'.header := by
      rw [List.getElem?_map, h]
      exact congrArg _ hc
    obtain ⟨hk, hget⟩ := List.getElem?_eq_some_iff.mp hget
    simp only [heads, lists, put, List.map_cons, List.map_set, ← hget, List.set_getElem_self]

/-! ### What is selected -/

lemma getElem?_of_mem_zipIdx {l : List ClipFiles} {i : ℕ} (h : (c, k) ∈ l.zipIdx i) :
    l[k - i]? = some c ∧ i ≤ k := by
  have := List.mem_zipIdx h
  exact ⟨List.getElem?_eq_some_iff.mpr ⟨by omega, this.2.2.symm⟩, this.1⟩

lemma getElem?_of_select {id : Option UInt32} (h : s.selectClipFiles connId id = some (c, k)) :
    s.lists[k]? = some c := by
  cases id with
  | some id =>
    simp only [selectClipFiles] at h
    split_ifs at h
    · cases h
      rfl
    · obtain ⟨hget, hle⟩ := getElem?_of_mem_zipIdx (List.mem_of_find?_eq_some h)
      obtain ⟨k, rfl⟩ := Nat.exists_eq_add_of_le' hle
      exact hget
  | none =>
    rcases Option.or_eq_some_iff.mp h with h | ⟨-, h⟩
    · exact (getElem?_of_mem_zipIdx (List.mem_of_find?_eq_some h)).1
    · cases h
      rfl

/-- A list that is named and not the current one was sent to the connection. -/
lemma select_some {id : UInt32} (h : s.selectClipFiles connId (some id) = some (c, k)) :
    c.id = id ∧ (c = s.current ∨ connId ∈ c.servedTo) := by
  simp only [selectClipFiles] at h
  split_ifs at h with hid
  · cases h
    exact ⟨hid, .inl rfl⟩
  · have := List.find?_some h
    simp only [decide_eq_true_eq] at this
    exact ⟨this.1, .inr this.2⟩

/-- Without a name, it is the newest that was sent to the connection, or else the current one. -/
lemma select_none (h : s.selectClipFiles connId none = some (c, k)) :
    (c = s.current ∧ ∀ c' ∈ s.lists, connId ∉ c'.servedTo) ∨
      connId ∈ c.servedTo ∧ ∀ i < k, ∀ c' ∈ s.lists[i]?, connId ∉ c'.servedTo := by
  rcases Option.or_eq_some_iff.mp h with h | ⟨hnone, h⟩
  · right
    obtain ⟨hserved, i, hi, hget, hbefore⟩ := List.find?_eq_some_iff_getElem.mp h
    rw [List.getElem_zipIdx, Prod.mk.injEq] at hget
    obtain rfl : i = k := by omega
    refine ⟨of_decide_eq_true hserved, fun j hj c' hc' => ?_⟩
    obtain ⟨hj', rfl⟩ := List.getElem?_eq_some_iff.mp hc'
    simpa using hbefore j hj
  · cases h
    refine .inl ⟨rfl, fun c' hc' hserved => ?_⟩
    obtain ⟨i, hi, rfl⟩ := List.getElem_of_mem hc'
    have := List.find?_eq_none.mp hnone (s.lists[i], i) (List.mem_zipIdx_iff_getElem?.mpr (by simp))
    exact this (decide_eq_true hserved)

/-! ### The books -/

/-- The lists that are held are the newest of those that were sent, and they know to whom. -/
structure Booked (s : Store) : Prop where
  number : s.current.number = s.copies
  newer : s.heads.Pairwise fun a b => b.1 < a.1
  served : ∀ h ∈ s.heads, ∀ connId, connId ∈ h.2 ↔ (connId, h.1) ∈ s.sent
  held : ∀ connId n, (connId, n) ∈ s.sent → n ∈ s.heads.map Prod.fst ∨ ∀ h ∈ s.heads, n < h.1
  order : s.sent.Pairwise fun a b => b.2 ≤ a.2

lemma Booked.le_copies (hs : s.Booked) {h : ℕ × List ℤ} (hh : h ∈ s.heads) : h.1 ≤ s.copies := by
  rw [← hs.number]
  rcases List.mem_cons.mp hh with rfl | hh
  · exact le_rfl
  · exact ((List.pairwise_cons.mp hs.newer).1 h hh).le

lemma Booked.sent_le (hs : s.Booked) (h : (connId, n) ∈ s.sent) : n ≤ s.copies := by
  rcases hs.held connId n h with h | h
  · obtain ⟨h, hh, rfl⟩ := List.mem_map.mp h
    exact hs.le_copies hh
  · exact ((h _ List.mem_cons_self).trans_eq hs.number).le

/-- A new list comes in front of some of those there were, and of all that are newer. -/
lemma Booked.renew (hs : s.Booked) {new : ClipFiles} {retired : List ClipFiles}
    (hnew : new.header = (s.copies + 1, []))
    (hsub : (retired.map ClipFiles.header).Sublist s.heads)
    (hheld : ∀ h ∈ s.heads, h.2 ≠ [] → h ∈ retired.map ClipFiles.header ∨
      ∀ h' ∈ retired.map ClipFiles.header, h.1 < h'.1) :
    { s with current := new, retired := retired, copies := s.copies + 1 }.Booked := by
  have hheads : { s with current := new, retired := retired, copies := s.copies + 1 }.heads =
      (s.copies + 1, []) :: retired.map ClipFiles.header := by
    rw [← hnew]
    rfl
  refine ⟨congrArg Prod.fst hnew, ?_, ?_, fun connId n hsent => ?_, hs.order⟩ <;> rw [hheads]
  · exact List.pairwise_cons.mpr ⟨fun h hh => Nat.lt_succ_of_le (hs.le_copies (hsub.subset hh)),
      hs.newer.sublist hsub⟩
  · intro h hh connId
    rcases List.mem_cons.mp hh with rfl | hh
    · refine iff_of_false List.not_mem_nil fun hsent => ?_
      exact absurd (hs.sent_le hsent) (Nat.not_succ_le_self _)
    · exact hs.served h (hsub.subset hh) connId
  · have hnewest := Nat.lt_succ_of_le (hs.sent_le hsent)
    rcases hs.held connId n hsent with hmem | h
    · obtain ⟨h, hh, rfl⟩ := List.mem_map.mp hmem
      have hne : h.2 ≠ [] := List.ne_nil_of_mem ((hs.served h hh connId).mpr hsent)
      rcases hheld h hh hne with hin | hold
      · exact .inl (List.mem_map_of_mem (List.mem_cons_of_mem _ hin))
      · exact .inr (List.forall_mem_cons.mpr ⟨hnewest, hold⟩)
    · exact .inr (List.forall_mem_cons.mpr ⟨hnewest, fun h' hh' => h h' (hsub.subset hh')⟩)

/-- The list that makes room is older than those that stay. -/
lemma mem_dropLast_or_lt {l : List (ℕ × List ℤ)} (hl : l.Pairwise fun a b => b.1 < a.1)
    {h : ℕ × List ℤ} (hh : h ∈ l) : h ∈ l.dropLast ∨ ∀ h' ∈ l.dropLast, h.1 < h'.1 := by
  obtain ⟨init, last, rfl⟩ := l.eq_nil_or_concat'.resolve_left (List.ne_nil_of_mem hh)
  rw [List.dropLast_concat]
  rcases List.mem_append.mp hh with hh | hh
  · exact .inl hh
  · exact .inr fun h' hh' => (List.pairwise_append.mp hl).2.2 h' hh' h hh

lemma Booked.syncFiles (hs : s.Booked) (files : List String) (sigs : List FileSig)
    (copy : Option Copy) : (s.syncFiles files sigs copy).Booked := by
  unfold Store.syncFiles
  split_ifs
  · exact hs
  cases copy with
  | none => exact hs
  | some copy =>
    have hrelease : s.current.releaseHandles.header = s.current.header := rfl
    refine hs.renew rfl ?_ fun h hh hne => ?_ <;> rw [retireIfServed]
    · split_ifs
      · exact List.sublist_cons_self _ _
      · simp only [List.map_cons, List.map_dropLast, hrelease]
        exact (List.dropLast_sublist _).cons_cons _
      · exact List.Sublist.refl _
    · rcases List.mem_cons.mp hh with rfl | hh
      · rw [if_neg (show s.current.servedTo ≠ [] from hne)]
        exact .inl List.mem_cons_self
      · split_ifs
        · exact .inl hh
        · simp only [List.map_cons, List.map_dropLast, hrelease]
          have hsorted := List.pairwise_cons.mp hs.newer
          rcases mem_dropLast_or_lt hsorted.2 hh with hin | hold
          · exact .inl (List.mem_cons_of_mem _ hin)
          · exact .inr (List.forall_mem_cons.mpr ⟨hsorted.1 h hh, hold⟩)
        · exact .inl (List.mem_cons_of_mem _ hh)

/-- The current list is sent to one more connection, or once more. -/
lemma Booked.send (hs : s.Booked) {current : ClipFiles} (hnumber : current.number = s.copies)
    (hserved : ∀ x, x ∈ current.servedTo ↔ x = connId ∨ x ∈ s.current.servedTo) :
    { s with current := current, sent := (connId, s.copies) :: s.sent }.Booked := by
  have hnewer := List.pairwise_cons.mp hs.newer
  have hheld : s.heads.map Prod.fst =
      { s with current := current, sent := (connId, s.copies) :: s.sent }.heads.map Prod.fst :=
    congrArg (· :: _) (hs.number.trans hnumber.symm)
  have hfirst : s.current.header.1 = current.header.1 := hs.number.trans hnumber.symm
  refine ⟨hnumber, List.pairwise_cons.mpr ⟨fun h hh => ?_, hnewer.2⟩, fun h hh x => ?_,
    fun x n hsent => ?_, List.pairwise_cons.mpr ⟨fun e he => hs.sent_le he, hs.order⟩⟩
  · rw [← hfirst]
    exact hnewer.1 h hh
  · rcases List.mem_cons.mp hh with rfl | hh
    · have := hs.served _ List.mem_cons_self x
      simp only [ClipFiles.header, hs.number] at this
      simp [ClipFiles.header, hnumber, hserved, this]
    · have hlt := (hnewer.1 h hh).trans_eq hs.number
      simp [hs.served h (List.mem_cons_of_mem _ hh) x, hlt.ne]
  · rcases List.mem_cons.mp hsent with heq | hsent
    · cases heq
      exact .inl (hnumber ▸ List.mem_cons_self)
    · rw [← hheld]
      refine (hs.held x n hsent).imp_right fun h => List.forall_mem_cons.mpr ⟨?_, fun h' hh' => ?_⟩
      · exact hfirst ▸ h _ List.mem_cons_self
      · exact h h' (List.mem_cons_of_mem _ hh')

lemma Booked.getFileListPdu (hs : s.Booked) (connId : ℤ) : (s.getFileListPdu connId).Booked := by
  unfold Store.getFileListPdu
  rw [hs.number]
  split_ifs with _ hin
  · exact hs
  · refine hs.send hs.number fun x => (or_iff_right_of_imp ?_).symm
    rintro rfl
    exact hin
  · exact hs.send hs.number fun x => by simp [or_comm]

lemma heads_readFileContents (s : Store) (connId : ℤ) (rq : Wire) (env : Env) :
    (s.readFileContents connId rq env).2.heads = s.heads ∧
      (s.readFileContents connId rq env).2.copies = s.copies ∧
      (s.readFileContents connId rq env).2.sent = s.sent := by
  unfold readFileContents
  split
  · exact ⟨rfl, rfl, rfl⟩
  split
  · exact ⟨rfl, rfl, rfl⟩
  case h_2 k hselect =>
    exact ⟨heads_put (getElem?_of_select hselect) (header_readList _ _ env _), by cases k <;> rfl,
      by cases k <;> rfl⟩

lemma Booked.congr (hs : s.Booked) (hheads : s'.heads = s.heads) (hcopies : s'.copies = s.copies)
    (hsent : s'.sent = s.sent) : s'.Booked := by
  have hcurrent : s'.current.number = s.current.number :=
    congrArg Prod.fst (List.cons.inj hheads).1
  refine ⟨?_, ?_, ?_, ?_, ?_⟩
  · rw [hcurrent, hcopies, hs.number]
  · rw [hheads]
    exact hs.newer
  · rw [hheads, hsent]
    exact hs.served
  · rw [hheads, hsent]
    exact hs.held
  · rw [hsent]
    exact hs.order

lemma booked (h : Clipboard.served.Reachable s) : s.Booked := by
  refine LTS.Reachable.invariant ?_ ?_ h
  · rintro s rfl
    exact ⟨rfl, List.pairwise_singleton _ _, by simp [start, heads, lists, ClipFiles.header],
      nofun, List.Pairwise.nil⟩
  · rintro s a s' - hs hstep
    cases a with
    | sync files sigs copy =>
      cases hstep
      exact hs.syncFiles files sigs copy
    | clear =>
      cases hstep
      exact hs.renew rfl (List.nil_sublist _) fun _ _ _ => .inr nofun
    | getFileListPdu connId =>
      cases hstep
      exact hs.getFileListPdu connId
    | read connId rq env =>
      cases hstep
      obtain ⟨hheads, hcopies, hsent⟩ := s.heads_readFileContents connId rq env
      exact hs.congr hheads hcopies hsent

/-! ### Answers -/

/-- The request was served: what is sent last is no error. -/
def answered (out : List (Except CliprdrError ClipboardFile)) : Bool :=
  out.getLast?.any fun res => res.toOption.isSome

/-- A request for the size of the first file. -/
def sizeRequest (clipDataId : Option UInt32) : Wire := ⟨0, 0, 0x1, 0, 0, 0, clipDataId⟩

lemma exists_select (h : answered (s.readFileContents connId rq env).1) :
    ∃ c k fcr, s.selectClipFiles connId rq.clipDataId = some (c, k) ∧
      answered (readList c (k ≠ 0) connId env fcr).1 := by
  unfold readFileContents at h
  split at h
  · cases h
  case h_2 fcr hfcr =>
    split at h
    · cases h
    case h_2 c k hselect => exact ⟨c, k, fcr, hselect, h⟩

lemma answered_readList_current {fcr : FileContentsRequest} :
    answered (readList c false connId env fcr).1 ↔
      (c.serveFileContents env connId fcr).1.toOption.isSome := by
  simp [readList, answered]

lemma fileList_ne_nil {fcr : FileContentsRequest}
    (h : answered (readList c false connId env fcr).1) : c.fileList ≠ [] := by
  intro hnil
  rw [answered_readList_current] at h
  cases fcr <;> simp [ClipFiles.serveFileContents, hnil, Except.toOption] at h

lemma answered_sizeRequest {id : Option UInt32}
    (h : s.selectClipFiles connId id = some (s.current, 0)) (hne : s.current.fileList ≠ []) :
    answered (s.readFileContents connId (sizeRequest id) env).1 := by
  obtain ⟨f, fs, hcons⟩ := List.exists_cons_of_ne_nil hne
  simp [readFileContents, sizeRequest, Wire.decode, h, answered_readList_current,
    ClipFiles.serveFileContents, hcons, Except.toOption]

/-- Nothing can be done. -/
def idle : Env := ⟨fun _ => none, true, true, fun _ => none, fun _ => false⟩

/-- Every answer to a request that names a list comes from a list of that id that the connection was
sent, exactly if the current list, where it has that id and any file, was sent to it. -/
theorem named_list_iff (hs : Clipboard.served.Reachable s) (connId : ℤ) (id : UInt32) :
    (∀ rq env, rq.clipDataId = some id → answered (s.readFileContents connId rq env).1 →
      ∃ c ∈ s.source connId rq, c.id = id ∧ (connId, c.number) ∈ s.sent) ↔
    (s.current.id = id → connId ∈ s.current.servedTo ∨ s.current.fileList = []) := by
  have hsent : ∀ c ∈ s.lists, connId ∈ c.servedTo ↔ (connId, c.number) ∈ s.sent := fun c hc =>
    (booked hs).served c.header (List.mem_map_of_mem hc) connId
  constructor
  · intro h hid
    by_cases hne : s.current.fileList = []
    · exact .inr hne
    have hselect : s.selectClipFiles connId (some id) = some (s.current, 0) := if_pos hid
    obtain ⟨c, hc, -, hc'⟩ := h (sizeRequest (some id)) idle rfl (answered_sizeRequest hselect hne)
    obtain rfl : c = s.current := by
      simpa [source, sizeRequest, hselect] using hc.symm
    exact .inl ((hsent _ List.mem_cons_self).mpr hc')
  · intro h rq env hrq hanswered
    obtain ⟨c, k, fcr, hselect, hanswered⟩ := exists_select hanswered
    have hmem := List.mem_of_getElem? (getElem?_of_select hselect)
    refine ⟨c, by simp [source, hselect], ?_⟩
    rw [hrq] at hselect
    obtain ⟨hid, rfl | hserved⟩ := select_some hselect
    · refine ⟨hid, (hsent _ hmem).mp ((h hid).resolve_right fun hnil => ?_)⟩
      have hzero : k = 0 := by
        simpa [selectClipFiles, hid] using hselect.symm
      subst hzero
      exact fileList_ne_nil hanswered hnil
    · exact ⟨hid, (hsent _ hmem).mp hserved⟩

/-- The description of a file of four bytes: its flags, the random bytes, its size and its name. -/
def describe (path : String) (nonce : UInt8) : Bytes :=
  let name := path.toList.flatMap fun c => [UInt8.ofNat c.toNat, 0]
  [1, 0, 0, 0, 0x6c, 0x40, 0, 0] ++ List.replicate 16 nonce ++ List.replicate 48 0 ++
    [4, 0, 0, 0] ++ name ++ List.replicate (520 - name.length) 0

def copyOf (path : String) (nonce : UInt8) : Act :=
  .sync [path] [⟨4, some 0, false⟩] (some ⟨[⟨path, none, 0, path, 4, 0, false⟩], fun _ => false,
    describe path nonce, List.cons_ne_nil _ _, by simp, List.cons_ne_nil _ _⟩)

/-- A file that was copied and sent to the connection that asks for it. -/
theorem named_list_iff_sent : ∃ s, Clipboard.served.Reachable s ∧
    answered (s.readFileContents 1 (sizeRequest (some s.current.id)) idle).1 ∧
    ∃ c ∈ s.source 1 (sizeRequest (some s.current.id)), (1, c.number) ∈ s.sent := by
  obtain ⟨s, hs, hne, hserved⟩ := LTS.exists_reachable (M := Clipboard.served) (s := start) rfl
    [copyOf "a" 1, .getFileListPdu 1]
    (P := fun s => s.current.fileList ≠ [] ∧ 1 ∈ s.current.servedTo) (by decide)
  have hanswered : answered (s.readFileContents 1 (sizeRequest (some s.current.id)) idle).1 :=
    answered_sizeRequest (if_pos rfl) hne
  obtain ⟨c, hc, -, hsent⟩ := (named_list_iff hs 1 s.current.id).mpr (fun _ => .inl hserved) _ _ rfl
    hanswered
  exact ⟨s, hs, hanswered, c, hc, hsent⟩

/-- A connection that was sent nothing names the current list and is answered. -/
theorem named_list_not_sent : ∃ s, Clipboard.served.Reachable s ∧
    answered (s.readFileContents 2 (sizeRequest (some s.current.id)) idle).1 ∧
    ∀ e ∈ s.sent, e.1 ≠ 2 := by
  obtain ⟨s, hs, hne, hsent⟩ := LTS.exists_reachable (M := Clipboard.served) (s := start) rfl
    [copyOf "a" 1, .getFileListPdu 1]
    (P := fun s => s.current.fileList ≠ [] ∧ ∀ e ∈ s.sent, e.1 ≠ 2) (by decide)
  exact ⟨s, hs, answered_sizeRequest (if_pos rfl) hne, hsent⟩

/-- The most recent entry of a connection is the newest. -/
lemma Booked.le_of_find (hs : s.Booked)
    (hlast : s.sent.find? (fun e => e.1 = connId) = some (connId, n)) {m : ℕ}
    (hm : (connId, m) ∈ s.sent) : m ≤ n := by
  obtain ⟨-, before, after, heq, hbefore⟩ := List.find?_eq_some_iff_append.mp hlast
  have horder := hs.order
  rw [heq] at hm horder
  rcases List.mem_append.mp hm with hm | hm
  · simpa using hbefore _ hm
  · rcases List.mem_cons.mp hm with hm | hm
    · cases hm
      exact le_rfl
    · exact (List.pairwise_cons.mp (List.pairwise_append.mp horder).2.1).1 _ hm

/-- If the list that was sent last is gone, so are all that were sent. -/
lemma Booked.select_of_gone (hs : s.Booked)
    (hlast : s.sent.find? (fun e => e.1 = connId) = some (connId, n))
    (hgone : ∀ c ∈ s.lists, c.number ≠ n) :
    s.selectClipFiles connId none = some (s.current, 0) := by
  have hnone : ∀ c ∈ s.lists, connId ∉ c.servedTo := by
    intro c hc hserved
    have hhead := List.mem_map_of_mem (f := ClipFiles.header) hc
    have hle := hs.le_of_find hlast ((hs.served _ hhead connId).mp hserved)
    rcases hs.held connId n (List.mem_of_find?_eq_some hlast) with hin | hnewer
    · obtain ⟨h, hmem, rfl⟩ := List.mem_map.mp hin
      obtain ⟨c', hc', rfl⟩ := List.mem_map.mp hmem
      exact hgone c' hc' rfl
    · exact absurd hle (hnewer _ hhead).not_ge
  rw [selectClipFiles, List.find?_eq_none.mpr]
  · rfl
  · rintro ⟨c, k⟩ hmem
    have := List.mem_of_getElem? (getElem?_of_mem_zipIdx hmem).1
    simpa using hnone c this

/-- Every answer to a request that names no list, of a connection that has been sent one, comes from
the one it was sent last, exactly if that list is still held or the current one is empty. -/
theorem unnamed_list_iff (hs : Clipboard.served.Reachable s) {connId : ℤ} {n : ℕ}
    (hlast : s.sent.find? (fun e => e.1 = connId) = some (connId, n)) :
    (∀ rq env, rq.clipDataId = none → answered (s.readFileContents connId rq env).1 →
      ∃ c ∈ s.source connId rq, c.number = n) ↔
    ((∃ c ∈ s.lists, c.number = n) ∨ s.current.fileList = []) := by
  have hb := booked hs
  by_cases hheld : ∃ c ∈ s.lists, c.number = n
  · refine iff_of_true (fun rq env hrq hanswered => ?_) (.inl hheld)
    obtain ⟨c, k, -, hselect, -⟩ := exists_select hanswered
    refine ⟨c, by simp [source, hselect], ?_⟩
    rw [hrq] at hselect
    obtain ⟨c', hc', rfl⟩ := hheld
    have hserved : connId ∈ c'.servedTo := (hb.served c'.header (List.mem_map_of_mem hc') _).mpr
      (List.mem_of_find?_eq_some hlast)
    rcases select_none hselect with ⟨-, hnone⟩ | ⟨hc, hbefore⟩
    · exact absurd hserved (hnone c' hc')
    have hget := getElem?_of_select hselect
    refine le_antisymm (hb.le_of_find hlast ?_) ?_
    · exact (hb.served c.header (List.mem_map_of_mem (List.mem_of_getElem? hget)) _).mp hc
    -- the list is not before the one that was found, so it is not newer
    obtain ⟨i, hi, rfl⟩ := List.getElem_of_mem hc'
    obtain ⟨hk, rfl⟩ := List.getElem?_eq_some_iff.mp hget
    rcases lt_trichotomy i k with hik | rfl | hki
    · exact absurd hserved (hbefore i hik _ (by simp))
    · exact le_rfl
    · have := List.pairwise_iff_getElem.mp hb.newer k i (by simpa [heads]) (by simpa [heads]) hki
      simpa [heads, ClipFiles.header] using this.le
  · have hgone : ∀ c ∈ s.lists, c.number ≠ n := fun c hc hn => hheld ⟨c, hc, hn⟩
    have hselect := hb.select_of_gone hlast hgone
    rw [or_iff_right hheld]
    constructor
    · intro h
      by_contra hne
      obtain ⟨c, hc, hn⟩ := h (sizeRequest none) idle rfl (answered_sizeRequest hselect hne)
      obtain rfl : c = s.current := by
        simpa [source, sizeRequest, hselect] using hc.symm
      exact hgone _ List.mem_cons_self hn
    · intro hnil rq env hrq hanswered
      obtain ⟨c, k, fcr, hselect', hanswered⟩ := exists_select hanswered
      rw [hrq, hselect] at hselect'
      cases hselect'
      exact absurd hnil (fileList_ne_nil hanswered)

/-- The second copy does not take the connection away from the first. -/
theorem unnamed_list_iff_kept : ∃ s, Clipboard.served.Reachable s ∧ s.current.number = 2 ∧
    answered (s.readFileContents 1 (sizeRequest none) idle).1 ∧
    ∃ c ∈ s.source 1 (sizeRequest none), c.number = 1 := by
  have hrun : ∃ s ∈ Clipboard.served.run start [copyOf "a" 1, .getFileListPdu 1, copyOf "b" 2],
      s.current.number = 2 ∧ answered (s.readFileContents 1 (sizeRequest none) idle).1 ∧
      s.sent.find? (fun e => e.1 = 1) = some (1, 1) ∧ ∃ c ∈ s.lists, c.number = 1 := by
    decide
  obtain ⟨s, hs, hnumber, hanswered, hlast, hheld⟩ := hrun
  have hinit : Clipboard.served.init start := rfl
  have hs := (LTS.Reachable.init hinit).run hs
  exact ⟨s, hs, hnumber, hanswered,
    (unnamed_list_iff hs hlast).mpr (.inl hheld) _ _ rfl hanswered⟩

/-- With five more copies, all sent to another connection or current, the first is gone, and its
connection reads the last. -/
theorem unnamed_list_redirected : ∃ s, Clipboard.served.Reachable s ∧
    s.sent.find? (fun e => e.1 = 1) = some (1, 1) ∧
    answered (s.readFileContents 1 (sizeRequest none) idle).1 ∧
    ∃ c ∈ s.source 1 (sizeRequest none), (1, c.number) ∉ s.sent :=
  LTS.exists_reachable (s := start) rfl [copyOf "a" 1, .getFileListPdu 1, copyOf "b" 2,
    .getFileListPdu 2, copyOf "c" 3, .getFileListPdu 2, copyOf "d" 4, .getFileListPdu 2,
    copyOf "e" 5, .getFileListPdu 2, copyOf "f" 6] (by decide)

/-! ### What is recorded -/

/-- A system in which the four bytes of every file can be read. -/
def readable : Env := ⟨fun _ => some [1, 2, 3, 4], true, true, fun _ => some (4, 0), fun _ => true⟩

end Store

end RustDesk.Clipboard

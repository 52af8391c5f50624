import Mathlib.Data.List.Infix
import Torkitten.Foundations.Reading
import Torkitten.Model.Encoding
import Torkitten.Tor.Paths

/-!
# Tor's control connection

`Client.exchange` opens the control socket, authenticates with the cookie, sends one command and
reads the replies to both through one buffered reader. A reply is read line by line; only the fourth
byte of a line decides whether it is the last one.

## Main definitions

* `Client.exchange`: the conversation as the program holds it, with a log of what it writes and of
  the lines that it reads.
* `Reply`: the replies of a well-behaved server.

## Main results

* `exchange_reads_replies`: two well-formed replies are read exactly, and no other stream of bytes is
  taken for an acceptance.
-/

namespace Torkitten.Tor

/-- The end of a line. -/
def newline : UInt8 := 10

/-- `maxControlLine`. -/
def maxControlLine : ℕ := 8192

/-! ## The buffered reader -/

/-- The bytes up to the first line end, which is included, and those that follow. -/
def cutLine : List UInt8 → Option (List UInt8 × List UInt8)
  | [] => none
  | b :: data =>
    if b = newline then some ([b], data)
    else (cutLine data).map fun cut => (b :: cut.1, cut.2)

/-- A `bufio.Reader` on the connection. -/
structure Reader where
  /-- What has been received and not yet read. -/
  buffered : List UInt8
  /-- What the following reads of the connection return, until one fails. -/
  arriving : List (List UInt8)
  deriving DecidableEq, Repr

/-- The bytes that are still to be read. -/
def Reader.unread (r : Reader) : List UInt8 := r.buffered ++ r.arriving.flatten

/-- `Reader.ReadString` of a line: the buffer is filled until it holds a line end. -/
def readString (buffered : List UInt8) : List (List UInt8) → Option (List UInt8) × Reader
  | [] =>
    match cutLine buffered with
    | some (line, rest) => (some line, ⟨rest, []⟩)
    | none => (none, ⟨[], []⟩)
  | chunk :: later =>
    match cutLine buffered with
    | some (line, rest) => (some line, ⟨rest, chunk :: later⟩)
    | none => readString (buffered ++ chunk) later

/-! ## The conversation -/

/-- What happens on the connection, as the client sees it. -/
inductive Traffic
  /-- A text that the client sends, or tries to. -/
  | write (text : String)
  /-- A line that the client reads. -/
  | read (line : List UInt8)
  deriving DecidableEq, Repr

/-- The connection of one exchange. -/
structure Conn where
  reader : Reader
  /-- The errors of the writes to come; further writes succeed. -/
  faults : List (Option String)
  log : List Traffic
  deriving DecidableEq, Repr

namespace Conn

/-- `io.WriteString` on the connection. -/
def write (conn : Conn) (text : String) : Except String Unit × Conn :=
  match conn.faults with
  | some err :: faults => (.error err, { conn with faults, log := conn.log ++ [.write text] })
  | none :: faults => (.ok (), { conn with faults, log := conn.log ++ [.write text] })
  | [] => (.ok (), { conn with log := conn.log ++ [.write text] })

/-- The loop of `controlCommand`, with the number of lines that it may still read. -/
def readReply : ℕ → Conn → Except String Unit × Conn
  | 0, conn => (.error "Tor control response too long", conn)
  | lines + 1, conn =>
    match readString conn.reader.buffered conn.reader.arriving with
    | (none, reader) => (.error "invalid Tor control response", { conn with reader })
    | (some line, reader) =>
      let conn := { conn with reader, log := conn.log ++ [.read line] }
      if line.length > maxControlLine then (.error "invalid Tor control response", conn)
      else if line.length ≥ 4 ∧ line.take 3 = utf8 "250" ∧ (line)[3]? = some 32 then (.ok (), conn)
      else if line.length ≥ 4 ∧ (line)[3]? = some 32 then
        (.error "Tor control command failed", conn)
      else readReply lines conn

/-- `controlCommand`. -/
def controlCommand (conn : Conn) (command : String) : Except String Unit × Conn :=
  match conn.write (command ++ "\r\n") with
  | (.error err, conn) => (.error err, conn)
  | (.ok (), conn) => conn.readReply 64

end Conn

/-- What `Lstat` says of the cookie file. -/
structure CookieInfo where
  regular : Bool
  size : ℕ
  perm : ℕ
  deriving DecidableEq, Repr

/-- What one exchange meets: the cookie file and the server behind the socket. -/
structure Endpoint where
  /-- The result of `Lstat`. -/
  info : Option CookieInfo
  /-- The result of `ReadFile`. -/
  cookie : Option (List UInt8)
  /-- The error of `DialContext`. -/
  refused : Option String
  /-- What the server sends before the connection ends or the deadline passes, as it arrives. -/
  arriving : List (List UInt8)
  faults : List (Option String)
  deriving DecidableEq, Repr

/-- `Client`. -/
structure Client where
  socket : String
  cookie : String
  deriving DecidableEq, Repr

/-- The part of `Client.exchange` that has the connection. -/
def converse (conn : Conn) (auth command : String) : Except String Unit × List Traffic :=
  let (result, conn) :=
    match conn.controlCommand auth with
    | (.ok (), conn) => conn.controlCommand command
    | (.error err, conn) => (.error err, conn)
  (result, (conn.write "QUIT\r\n").2.log)

/-- `Client.exchange`, with what happens on the connection. -/
def Client.exchange (client : Client) (host : Endpoint) (command : String) :
    Except String Unit × List Traffic :=
  if !safePath client.socket || !safePath client.cookie then (.error "unsafe Tor control paths", [])
  else match host.info with
  | none => (.error "unsafe Tor control cookie", [])
  | some info =>
    if !info.regular || info.size != 32 || info.perm &&& 0o077 != 0 then
      (.error "unsafe Tor control cookie", [])
    else match host.cookie with
    | none => (.error "invalid Tor control cookie", [])
    | some cookie =>
      if cookie.length != 32 then (.error "invalid Tor control cookie", [])
      else match host.refused with
      | some err => (.error err, [])
      | none =>
        converse ⟨⟨[], host.arriving⟩, host.faults, []⟩ ("AUTHENTICATE " ++ hexEncode cookie) command

/-- `Client.Reload`. -/
def Client.reload (client : Client) (host : Endpoint) : Except String Unit × List Traffic :=
  client.exchange host "SIGNAL RELOAD"

/-- `Client.Healthy`. -/
def Client.healthy (client : Client) (host : Endpoint) : Except String Unit × List Traffic :=
  client.exchange host "GETINFO version"

/-! ## Lines -/

/-- Bytes that end with their only line end. -/
def IsLine (line : List UInt8) : Prop := ∃ text, newline ∉ text ∧ line = text ++ [newline]

variable {data line rest : List UInt8}

/-- A stream has at most one first line. -/
theorem IsLine.inj {line' rest' : List UInt8} (h : IsLine line) (h' : IsLine line')
    (heq : line ++ rest = line' ++ rest') : line = line' ∧ rest = rest' := by
  obtain ⟨text, hclean, rfl⟩ := h
  obtain ⟨text', hclean', rfl⟩ := h'
  rw [List.append_assoc, List.append_assoc] at heq
  obtain ⟨htext, hrest⟩ := append_separator_inj hclean hclean' heq
  exact ⟨by rw [htext], hrest⟩

/-- A cut is made after the first line. -/
theorem cutLine_some (h : cutLine data = some (line, rest)) : IsLine line ∧ data = line ++ rest := by
  induction data generalizing line with
  | nil => cases h
  | cons b data ih =>
    rw [cutLine] at h
    split at h
    next hb =>
      cases h
      exact ⟨⟨[], List.not_mem_nil, by rw [hb]; rfl⟩, rfl⟩
    next hb =>
      obtain ⟨⟨line, rest⟩, hcut, heq⟩ := Option.map_eq_some_iff.mp h
      cases heq
      obtain ⟨⟨text, hclean, hline⟩, hdata⟩ := ih hcut
      refine ⟨⟨b :: text, ?_, by simp [hline]⟩, by simp [hdata]⟩
      simp only [List.mem_cons, not_or]
      exact ⟨Ne.symm hb, hclean⟩

/-- No cut is made only where no line ends. -/
theorem newline_notMem_of_cutLine (h : cutLine data = none) : newline ∉ data := by
  induction data with
  | nil => exact List.not_mem_nil
  | cons b data ih =>
    rw [cutLine] at h
    split at h
    next => cases h
    next hb =>
      simp only [List.mem_cons, not_or]
      exact ⟨Ne.symm hb, ih (Option.map_eq_none_iff.mp h)⟩

/-- What is read is the first line of the stream, and the rest of the stream stays. -/
theorem readString_some {buffered : List UInt8} {arriving : List (List UInt8)} {reader : Reader}
    (h : readString buffered arriving = (some line, reader)) :
    IsLine line ∧ buffered ++ arriving.flatten = line ++ reader.unread := by
  induction arriving generalizing buffered with
  | nil =>
    rw [readString] at h
    split at h
    next hcut =>
      cases h
      obtain ⟨hline, hdata⟩ := cutLine_some hcut
      exact ⟨hline, by simp [Reader.unread, hdata]⟩
    next => cases h
  | cons chunk later ih =>
    rw [readString] at h
    split at h
    next hcut =>
      cases h
      obtain ⟨hline, hdata⟩ := cutLine_some hcut
      exact ⟨hline, by simp [Reader.unread, hdata]⟩
    next =>
      rw [List.flatten_cons, ← List.append_assoc]
      exact ih h

/-- A stream without a line end is given up. -/
theorem readString_none {buffered : List UInt8} {arriving : List (List UInt8)} {reader : Reader}
    (h : readString buffered arriving = (none, reader)) :
    newline ∉ buffered ++ arriving.flatten := by
  induction arriving generalizing buffered with
  | nil =>
    rw [readString] at h
    split at h
    next => cases h
    next hcut => simpa using newline_notMem_of_cutLine hcut
  | cons chunk later ih =>
    rw [readString] at h
    split at h
    next => cases h
    next =>
      rw [List.flatten_cons, ← List.append_assoc]
      exact ih h

/-- The first line of a stream is read, however the stream arrives. -/
theorem readString_of_isLine {reader : Reader} (hline : IsLine line)
    (h : reader.unread = line ++ rest) :
    ∃ after, readString reader.buffered reader.arriving = (some line, after) ∧
      after.unread = rest := by
  rcases hread : readString reader.buffered reader.arriving with ⟨_ | line', after⟩
  · -- the line end of the first line is in the stream
    obtain ⟨text, -, rfl⟩ := hline
    have hmem : newline ∈ reader.unread := by simp [h]
    exact absurd hmem (readString_none hread)
  · obtain ⟨hline', hdata⟩ := readString_some hread
    obtain ⟨rfl, hrest⟩ := hline'.inj hline (hdata.symm.trans h)
    exact ⟨after, rfl, hrest⟩

/-! ## Replies -/

/-- The line is the last one of a reply. -/
def IsFinal (line : List UInt8) : Prop := line.length ≥ 4 ∧ (line)[3]? = some 32

/-- The lines end with a final line of code 250 and have no final line before it. -/
def Accepted (lines : List (List UInt8)) : Prop :=
  ∃ before last, lines = before ++ [last] ∧ (∀ line ∈ before, ¬ IsFinal line) ∧
    IsFinal last ∧ last.take 3 = utf8 "250"

/-- A line of a reply, without the byte that says whether another one follows. -/
structure ReplyLine where
  code : List UInt8
  text : List UInt8
  code_length : code.length = 3
  code_digits : ∀ b ∈ code, 48 ≤ b ∧ b ≤ 57
  text_clean : newline ∉ text
  length_le : text.length + 5 ≤ maxControlLine

namespace ReplyLine

variable (l : ReplyLine) (mark : UInt8)

/-- The bytes of a line: its code, the mark, its text and the line end. -/
def bytes : List UInt8 := l.code ++ mark :: l.text ++ [newline]

theorem length_bytes : (l.bytes mark).length = l.text.length + 5 := by
  simp only [bytes, List.length_append, List.length_cons, List.length_nil, l.code_length]
  omega

theorem take_bytes : (l.bytes mark).take 3 = l.code := by
  rw [bytes, List.append_assoc, ← l.code_length, List.take_left]

theorem getElem?_bytes : (l.bytes mark)[3]? = some mark := by
  rw [bytes, List.append_assoc, ← l.code_length, List.getElem?_append_right (Nat.le_refl _),
    Nat.sub_self]
  rfl

variable {mark}

theorem isLine_bytes (hmark : mark ≠ newline) : IsLine (l.bytes mark) := by
  refine ⟨l.code ++ mark :: l.text, ?_, rfl⟩
  simp only [List.mem_append, List.mem_cons, not_or]
  refine ⟨fun hmem => ?_, hmark.symm, l.text_clean⟩
  exact absurd (l.code_digits _ hmem).1 (by decide)

end ReplyLine

/-- A reply: lines that announce another one, and a final one. -/
structure Reply where
  continuation : List ReplyLine
  final : ReplyLine
  continuation_length : continuation.length ≤ 63

namespace Reply

variable (reply : Reply)

/-- The lines of a reply, as they are sent. -/
def lines : List (List UInt8) :=
  reply.continuation.map (·.bytes 45) ++ [reply.final.bytes 32]

/-- The bytes of a reply. -/
def bytes : List UInt8 := reply.lines.flatten

/-- The command has been accepted. -/
def Accepting : Prop := reply.final.code = utf8 "250"

instance : Decidable reply.Accepting := inferInstanceAs (Decidable (_ = _))

end Reply

/-! ## Reading one reply -/

namespace Conn

variable {conn conn' : Conn} {n : ℕ}

/-- One iteration of the loop on a stream that starts with a line. -/
theorem readReply_succ (hline : IsLine line) (h : conn.reader.unread = line ++ rest) :
    ∃ after : Conn, after.reader.unread = rest ∧ after.faults = conn.faults ∧
      after.log = conn.log ++ [.read line] ∧
      conn.readReply (n + 1) =
        if line.length > maxControlLine then (.error "invalid Tor control response", after)
        else if line.length ≥ 4 ∧ line.take 3 = utf8 "250" ∧ (line)[3]? = some 32 then (.ok (), after)
        else if line.length ≥ 4 ∧ (line)[3]? = some 32 then (.error "Tor control command failed", after)
        else after.readReply n := by
  obtain ⟨reader, hread, hrest⟩ := readString_of_isLine hline h
  refine ⟨{ conn with reader, log := conn.log ++ [.read line] }, hrest, rfl, rfl, ?_⟩
  rw [readReply, hread]

/-- A reply is read to its end and no further, and its final code decides. -/
theorem readReply_reply {continuation : List ReplyLine} {final : ReplyLine}
    (hlines : continuation.length < n)
    (h : conn.reader.unread =
      (continuation.map (·.bytes 45) ++ [final.bytes 32]).flatten ++ rest) :
    ∃ after : Conn, after.reader.unread = rest ∧ after.faults = conn.faults ∧
      after.log = conn.log ++ (continuation.map (·.bytes 45) ++ [final.bytes 32]).map .read ∧
      conn.readReply n = (if final.code = utf8 "250" then .ok ()
        else .error "Tor control command failed", after) := by
  induction continuation generalizing n conn with
  | nil =>
    obtain ⟨n, rfl⟩ := Nat.exists_eq_add_of_le' (Nat.zero_lt_of_lt hlines)
    have hstream : conn.reader.unread = final.bytes 32 ++ rest := by simpa using h
    obtain ⟨after, hrest, hfaults, hlog, hstep⟩ :=
      readReply_succ (n := n) (final.isLine_bytes (by decide)) hstream
    refine ⟨after, hrest, hfaults, by simpa using hlog, ?_⟩
    have hlength := final.length_bytes 32
    have hshort := final.length_le
    rw [hstep, if_neg (by omega), final.take_bytes, final.getElem?_bytes]
    by_cases hcode : final.code = utf8 "250"
    · rw [if_pos ⟨by omega, hcode, rfl⟩, if_pos hcode]
    · rw [if_neg (fun hall => hcode hall.2.1), if_pos ⟨by omega, rfl⟩, if_neg hcode]
  | cons l continuation ih =>
    obtain ⟨n, rfl⟩ := Nat.exists_eq_add_of_le' (Nat.zero_lt_of_lt hlines)
    have hstream : conn.reader.unread = l.bytes 45 ++
        ((continuation.map (·.bytes 45) ++ [final.bytes 32]).flatten ++ rest) := by
      simpa [List.append_assoc] using h
    obtain ⟨next, hrest, hfaults, hlog, hstep⟩ :=
      readReply_succ (n := n) (l.isLine_bytes (by decide)) hstream
    obtain ⟨after, hrest', hfaults', hlog', hresult⟩ := ih (Nat.lt_of_succ_lt_succ hlines) hrest
    refine ⟨after, hrest', hfaults'.trans hfaults, by simp [hlog', hlog], ?_⟩
    have hshort := l.length_le
    -- the mark of a continuation line is not a blank
    have hmark : ¬ (l.bytes 45)[3]? = some 32 := by
      rw [l.getElem?_bytes]
      decide
    rw [hstep, if_neg (by rw [l.length_bytes]; omega), if_neg fun hall => hmark hall.2.2,
      if_neg fun hall => hmark hall.2, hresult]

/-- What `readReply` reads are lines of the stream, at most as many as it may; they are read up to the
first final line when it succeeds. -/
theorem readReply_heard {result : Except String Unit} (h : conn.readReply n = (result, conn')) :
    ∃ lines : List (List UInt8), lines.length ≤ n ∧ (∀ line ∈ lines, IsLine line) ∧
      conn'.log = conn.log ++ lines.map .read ∧ lines.flatten <+: conn.reader.unread ∧
      (result = .ok () →
        conn.reader.unread = lines.flatten ++ conn'.reader.unread ∧ Accepted lines) := by
  induction n generalizing conn with
  | zero =>
    cases h
    exact ⟨[], Nat.le_refl _, nofun, by simp, List.nil_prefix, nofun⟩
  | succ n ih =>
    rcases hread : readString conn.reader.buffered conn.reader.arriving with ⟨_ | line, reader⟩
    · rw [readReply, hread] at h
      cases h
      exact ⟨[], Nat.zero_le _, nofun, by simp, List.nil_prefix, nofun⟩
    · obtain ⟨hline, hstream⟩ := readString_some hread
      obtain ⟨after, hrest, -, hlog, hstep⟩ := readReply_succ (n := n) hline hstream
      -- where the loop ends, the line is all that it has read
      have hend : conn' = after → (result = .ok () → Accepted [line]) → ∃ lines : List (List UInt8),
          lines.length ≤ n + 1 ∧ (∀ line ∈ lines, IsLine line) ∧
          conn'.log = conn.log ++ lines.map .read ∧ lines.flatten <+: conn.reader.unread ∧
          (result = .ok () →
            conn.reader.unread = lines.flatten ++ conn'.reader.unread ∧ Accepted lines) := by
        rintro rfl haccepted
        have hflat : conn.reader.unread = [line].flatten ++ conn'.reader.unread := by
          rw [hrest, List.flatten_singleton]
          exact hstream
        exact ⟨[line], by simp, by simpa using hline, hlog, ⟨_, hflat.symm⟩,
          fun hok => ⟨hflat, haccepted hok⟩⟩
      rw [hstep] at h
      split at h
      · cases h
        exact hend rfl nofun
      split at h
      next haccepts =>
        cases h
        exact hend rfl fun _ => ⟨[], line, rfl, nofun, ⟨haccepts.1, haccepts.2.2⟩, haccepts.2.1⟩
      split at h
      · cases h
        exact hend rfl nofun
      next hfinal =>
        obtain ⟨lines, hlength, hwhole, hlog', ⟨tail, htail⟩, hok⟩ := ih h
        refine ⟨line :: lines, Nat.succ_le_succ hlength, ?_, by simp [hlog', hlog], ⟨tail, ?_⟩, ?_⟩
        · exact List.forall_mem_cons.mpr ⟨hline, hwhole⟩
        · rw [List.flatten_cons, List.append_assoc, htail, hrest]
          exact hstream.symm
        · intro hres
          obtain ⟨hunread, before, last, rfl, hbefore, hlast⟩ := hok hres
          refine ⟨?_, line :: before, last, rfl, List.forall_mem_cons.mpr ⟨hfinal, hbefore⟩, hlast⟩
          rw [List.flatten_cons, List.append_assoc, ← hunread, hrest]
          exact hstream

/-! ## One command -/

theorem log_write (conn : Conn) (text : String) :
    (conn.write text).2.log = conn.log ++ [.write text] := by
  unfold write
  split <;> rfl

theorem reader_write (conn : Conn) (text : String) : (conn.write text).2.reader = conn.reader := by
  unfold write
  split <;> rfl

/-- Where no write is to fail, this one succeeds. -/
theorem write_ok (hfaults : ∀ fault ∈ conn.faults, fault = none) (text : String) :
    (conn.write text).1 = .ok () ∧ ∀ fault ∈ (conn.write text).2.faults, fault = none := by
  unfold write
  split
  next err faults heq =>
    rw [heq] at hfaults
    cases hfaults _ List.mem_cons_self
  next faults heq =>
    rw [heq] at hfaults
    exact ⟨rfl, (List.forall_mem_cons.mp hfaults).2⟩
  next heq => exact ⟨rfl, hfaults⟩

/-- A command is answered by the reply that comes next in the stream. -/
theorem controlCommand_reply (hfaults : ∀ fault ∈ conn.faults, fault = none) (command : String)
    (reply : Reply) (h : conn.reader.unread = reply.bytes ++ rest) :
    ∃ after : Conn, after.reader.unread = rest ∧ (∀ fault ∈ after.faults, fault = none) ∧
      after.log = conn.log ++ .write (command ++ "\r\n") :: reply.lines.map .read ∧
      conn.controlCommand command = (if reply.Accepting then .ok ()
        else .error "Tor control command failed", after) := by
  obtain ⟨hok, hfaults'⟩ := write_ok hfaults (command ++ "\r\n")
  rw [← reader_write conn (command ++ "\r\n")] at h
  obtain ⟨after, hrest, hsame, hlog, hread⟩ :=
    readReply_reply (Nat.lt_succ_of_le reply.continuation_length) h
  refine ⟨after, hrest, hsame ▸ hfaults', ?_, ?_⟩
  · rw [hlog, log_write, List.append_assoc]
    rfl
  · unfold controlCommand
    rw [show conn.write (command ++ "\r\n") = (.ok (), (conn.write (command ++ "\r\n")).2) from
      Prod.ext hok rfl]
    exact hread

/-- Whatever the stream is, a command reads at most 64 lines of it and succeeds only by an acceptance
in them. -/
theorem controlCommand_heard {command : String} {result : Except String Unit}
    (h : conn.controlCommand command = (result, conn')) :
    ∃ lines : List (List UInt8), lines.length ≤ 64 ∧ (∀ line ∈ lines, IsLine line) ∧
      conn'.log = conn.log ++ .write (command ++ "\r\n") :: lines.map .read ∧
      lines.flatten <+: conn.reader.unread ∧
      (result = .ok () →
        conn.reader.unread = lines.flatten ++ conn'.reader.unread ∧ Accepted lines) := by
  have hlog := log_write conn (command ++ "\r\n")
  have hreader := reader_write conn (command ++ "\r\n")
  unfold controlCommand at h
  split at h
  next err written hwrite =>
    cases h
    rw [hwrite] at hlog
    exact ⟨[], Nat.zero_le _, nofun, hlog, List.nil_prefix, nofun⟩
  next written hwrite =>
    rw [hwrite] at hlog hreader
    obtain ⟨lines, hlength, hwhole, hread, hstream, hok⟩ := readReply_heard h
    rw [hreader] at hstream hok
    refine ⟨lines, hlength, hwhole, ?_, hstream, hok⟩
    rw [hread, hlog, List.append_assoc]
    rfl

end Conn

/-! ## The result -/

/-- The log of an exchange: the replies to the authentication and, where it is sent, to the
command. -/
def conversation (auth command : String) (first : List (List UInt8))
    (second : Option (List (List UInt8))) : List Traffic :=
  .write (auth ++ "\r\n") :: first.map .read ++
    second.elim [] (fun lines => .write (command ++ "\r\n") :: lines.map .read) ++
    [.write "QUIT\r\n"]

/-- The client can talk to the server. -/
structure Ready (client : Client) (host : Endpoint) (cookie : List UInt8) : Prop where
  socket : safePath client.socket = true
  path : safePath client.cookie = true
  info : ∃ info, host.info = some info ∧ info.regular = true ∧ info.size = 32 ∧
    info.perm &&& 0o077 = 0
  content : host.cookie = some cookie
  length : cookie.length = 32
  refused : host.refused = none
  faults : ∀ fault ∈ host.faults, fault = none

/-- What holds of the lines that are read from any stream. -/
structure Guarded (stream : List UInt8) (result : Except String Unit) (first : List (List UInt8))
    (second : Option (List (List UInt8))) : Prop where
  first_length : first.length ≤ 64
  second_length : ∀ lines ∈ second, lines.length ≤ 64
  whole : ∀ line ∈ first ++ second.getD [], IsLine line
  stream : (first ++ second.getD []).flatten <+: stream
  /-- The command is sent only after an acceptance. -/
  sent : second.isSome = true → Accepted first
  success : result = .ok () → ∃ lines, second = some lines ∧ Accepted lines

theorem converse_replies {conn : Conn} (hfaults : ∀ fault ∈ conn.faults, fault = none)
    (hlog : conn.log = []) (auth command : String) (first second : Reply)
    (h : conn.reader.unread = first.bytes ++ second.bytes ++ rest) :
    ((converse conn auth command).1 = .ok () ↔ first.Accepting ∧ second.Accepting) ∧
      (converse conn auth command).2 = conversation auth command first.lines
        (if first.Accepting then some second.lines else none) := by
  rw [List.append_assoc] at h
  obtain ⟨middle, hrest, hfaults', hlog', hfirst⟩ := conn.controlCommand_reply hfaults auth first h
  by_cases haccept : first.Accepting
  · obtain ⟨after, -, -, hlog'', hsecond⟩ :=
      middle.controlCommand_reply hfaults' command second hrest
    rw [if_pos haccept] at hfirst
    simp only [converse, hfirst, hsecond, Conn.log_write, hlog'', hlog', hlog, if_pos haccept,
      conversation]
    refine ⟨?_, by simp⟩
    by_cases haccept' : second.Accepting
    · simp [haccept, haccept']
    · simp [haccept']
  · rw [if_neg haccept] at hfirst
    simp only [converse, hfirst, Conn.log_write, hlog', hlog, if_neg haccept, conversation]
    exact ⟨by simp [haccept], by simp⟩

theorem converse_guarded {conn : Conn} (hlog : conn.log = []) (auth command : String) :
    ∃ first second, (converse conn auth command).2 = conversation auth command first second ∧
      Guarded conn.reader.unread (converse conn auth command).1 first second := by
  rcases hfirst : conn.controlCommand auth with ⟨err | ⟨⟩, middle⟩
  · obtain ⟨first, hlength, hwhole, hlog', hstream, -⟩ := Conn.controlCommand_heard hfirst
    refine ⟨first, none, ?_, hlength, nofun, by simpa using hwhole, by simpa using hstream, nofun, ?_⟩
    · simp [converse, hfirst, Conn.log_write, hlog', hlog, conversation]
    · simp [converse, hfirst]
  · obtain ⟨first, hlength, hwhole, hlog', -, hok⟩ := Conn.controlCommand_heard hfirst
    obtain ⟨hunread, haccepted⟩ := hok rfl
    rcases hsecond : middle.controlCommand command with ⟨result, after⟩
    obtain ⟨second, hlength', hwhole', hlog'', hstream', hok'⟩ := Conn.controlCommand_heard hsecond
    refine ⟨first, some second, ?_, hlength, ?_, ?_, ?_, fun _ => haccepted, ?_⟩
    · simp [converse, hfirst, hsecond, Conn.log_write, hlog'', hlog', hlog, conversation]
    · simpa using hlength'
    · simp only [Option.getD_some, List.mem_append]
      exact fun line hline => hline.elim (hwhole line) (hwhole' line)
    · rw [hunread, Option.getD_some, List.flatten_append]
      exact List.prefix_append_right_inj _ |>.mpr hstream'
    · intro hres
      have hresult : result = .ok () := by simpa [converse, hfirst, hsecond] using hres
      exact ⟨second, rfl, (hok' hresult).2⟩

/-- Two well-formed replies are read exactly: the exchange succeeds iff both accept, the command is
sent iff the first one does, and the second reply starts where the first one ends. From any other
stream each command reads at most 64 lines, and no success is reported and no command sent without a
final line of code 250 before any other final line. -/
theorem exchange_reads_replies (client : Client) (host : Endpoint) (command : String) :
    (∀ (cookie : List UInt8) (first second : Reply) (rest : List UInt8),
        Ready client host cookie → host.arriving.flatten = first.bytes ++ second.bytes ++ rest →
        ((client.exchange host command).1 = .ok () ↔ first.Accepting ∧ second.Accepting) ∧
          (client.exchange host command).2 =
            conversation ("AUTHENTICATE " ++ hexEncode cookie) command first.lines
              (if first.Accepting then some second.lines else none)) ∧
      ((client.exchange host command).1 ≠ .ok () ∧ (client.exchange host command).2 = [] ∨
        ∃ auth first second,
          (client.exchange host command).2 = conversation auth command first second ∧
            Guarded host.arriving.flatten (client.exchange host command).1 first second) := by
  constructor
  · intro cookie first second rest hready hstream
    obtain ⟨info, hinfo, hregular, hsize, hperm⟩ := hready.info
    have hexchange : client.exchange host command = converse ⟨⟨[], host.arriving⟩, host.faults, []⟩
        ("AUTHENTICATE " ++ hexEncode cookie) command := by
      simp [Client.exchange, hready.socket, hready.path, hinfo, hregular, hsize, hperm, hready.content,
        hready.length, hready.refused]
    rw [hexchange]
    exact converse_replies hready.faults rfl _ command first second hstream
  · unfold Client.exchange
    -- the checks before the connection is there fail without a word
    split
    · exact .inl ⟨nofun, rfl⟩
    split
    · exact .inl ⟨nofun, rfl⟩
    split
    · exact .inl ⟨nofun, rfl⟩
    split
    · exact .inl ⟨nofun, rfl⟩
    split
    · exact .inl ⟨nofun, rfl⟩
    split
    · exact .inl ⟨nofun, rfl⟩
    · exact .inr ⟨_, converse_guarded rfl _ command⟩

/-- The reply `250 OK`. -/
def okReply : Reply where
  continuation := []
  final :=
    { code := [50, 53, 48]
      text := [79, 75, 13]
      code_length := rfl
      code_digits := by simp
      text_clean := by decide
      length_le := by decide }
  continuation_length := by decide

/-- A server that accepts, whose replies arrive in pieces. -/
def acceptingHost : Endpoint where
  info := some { regular := true, size := 32, perm := 0o600 }
  cookie := some (List.replicate 32 7)
  refused := none
  arriving := [[50, 53, 48], [32, 79, 75, 13, 10, 50], [53, 48, 32, 79, 75, 13, 10]]
  faults := []

theorem acceptingHost_reads_replies :
    (Client.exchange ⟨defaultPaths.controlSocket, defaultPaths.cookieFile⟩ acceptingHost
      "SIGNAL RELOAD").1 = .ok () := by
  have hready : Ready ⟨defaultPaths.controlSocket, defaultPaths.cookieFile⟩ acceptingHost
      (List.replicate 32 7) :=
    { socket := by decide
      path := by decide
      info := ⟨_, rfl, rfl, rfl, rfl⟩
      content := rfl
      length := rfl
      refused := rfl
      faults := nofun }
  have hexact := (exchange_reads_replies ⟨defaultPaths.controlSocket, defaultPaths.cookieFile⟩
    acceptingHost "SIGNAL RELOAD").1 _ okReply okReply [] hready rfl
  exact hexact.1.mpr ⟨by decide, by decide⟩

end Torkitten.Tor

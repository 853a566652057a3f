/-
  Chat: the slots of `MessageShell` for the three chat opcodes.

  Each slot writes a line to the log and hands one to the clients. `OP_ChannelMessage` has two names
  and a text of any length, `OP_FormattedMessage` the arguments of a format string,
  `OP_SpecialMesg` a text. No opcode has a length check of its own. Every read is noted with the
  length of the payload.

  Proved:
  * `handlers_inside`: no payload, of whatever length, is read behind its end.
  * `channelMessages_payload`: the lines that were put into packets are those that come out, in
    their order, but for the end of a text that is too long.
-/
import ShoweqDaemon.Decoder.Streams
import ShoweqDaemon.Lib.CString
import ShoweqDaemon.Message.EQStr
import ShoweqDaemon.Message.ItemLinks
import ShoweqDaemon.Message.MessageFilters

namespace ShoweqDaemon.Messages

open Audit
open Decoder (Dir)
open Spawns (QString)

/-! ## Types of messages -/

/-- The types of messages that the two slots use, from message.h. -/
def MT_Guild : UInt32 := 0
def MT_Group : UInt32 := 2
def MT_Shout : UInt32 := 3
def MT_Auction : UInt32 := 4
def MT_OOC : UInt32 := 5
def MT_Tell : UInt32 := 7
def MT_Say : UInt32 := 8
def MT_Raid : UInt32 := 15
def MT_General : UInt32 := 19
def MT_System : UInt32 := 21
def MT_Money : UInt32 := 22
def MT_Random : UInt32 := 23
def MT_Emote : UInt32 := 24
def MT_Spell : UInt32 := 26

/-- The color of a message that names none. -/
def ME_InvalidColor : UInt32 := 0x000000ff

/-- The `CC_User` colours that have a type of their own. -/
def chatColorTypes : List (UInt32 × UInt32) :=
  -- the colour of each channel, then that of its echo
  [(256, MT_Say), (307, MT_Say), (257, MT_Tell), (308, MT_Tell), (258, MT_Group), (309, MT_Group),
    (259, MT_Guild), (310, MT_Guild), (260, MT_OOC), (311, MT_OOC), (261, MT_Auction),
    (312, MT_Auction), (262, MT_Shout), (313, MT_Shout), (263, MT_Emote), (314, MT_Emote),
    (327, MT_Raid),
    -- Spells, SpellWornOff, OtherSpells, SpellFailure, SpellCrit
    (264, MT_Spell), (284, MT_Spell), (288, MT_Spell), (289, MT_Spell), (302, MT_Spell),
    (285, MT_Money), (287, MT_Random)]

/-- `chatColor2MessageType`: the type for a color of the chat window, general for one that is not
    listed. -/
def chatColor2MessageType (chatColor : UInt32) : UInt32 :=
  (chatColorTypes.lookup chatColor).getD MT_General

/-! ## Texts -/

/-- The names of the languages, by number. -/
def languagenames : List String :=
  ["Common Tongue", "Barbarian", "Erudian", "Elvish", "Dark Elvish", "Dwarvish", "Troll", "Ogre",
    "Gnomish", "Halfling", "Thieves Cant", "Old Erudian", "Elder Elvish", "Froglok", "Goblin",
    "Gnoll", "Combine Tongue", "Elder Teir'Dal", "Lizardman", "Orcish", "Faerie", "Dragon",
    "Elder Dragon", "Dark Speech", "Van Shir"]

/-- `language_name`: the name of a language, or its number where the table has none. -/
def language_name (langId : UInt8) : QString :=
  match languagenames[langId.toNat]? with
  | some name => name.toList
  | none => Nat.toDigits 10 langId.toNat

/-- `QString::fromLatin1`, one character for a byte. -/
def fromLatin1 (bytes : List UInt8) : QString := bytes.map fun b => Char.ofNat b.toNat

/-! ## Reading -/

section
variable (data : List UInt8)

/-- Two bytes of a packet, the low one first; both reads are noted. -/
def readU16 (off : ℕ) : Noted Element UInt16 := do
  let lo ← element data off
  let hi ← element data (off + 1)
  pure (ByteReader.be16 hi lo)

/-- Four bytes of a packet, the low one first. -/
def readU32 (off : ℕ) : Noted Element UInt32 := do
  let lo ← readU16 data off
  let hi ← readU16 data (off + 2)
  pure (hi.toUInt32 <<< 16 ||| lo.toUInt32)

end

/-- A `channelMessageStruct`, its texts up to the NUL. -/
structure ChannelMessage where
  target : List UInt8
  sender : List UInt8
  language : UInt16
  chanNum : UInt16
  skillInLanguage : UInt16
  message : List UInt8
  deriving DecidableEq, Repr

/-- `offsetof(channelMessageStruct, message)` -/
def msgOff : ℕ := 136

/-- The copy of the struct, which was cleared, so that each text has a NUL behind it. -/
def readChannelMessage (data : List UInt8) : Noted Element ChannelMessage := do
  let target ← slice data 0 63
  let sender ← slice data 64 63
  let language ← readU16 data 128
  let chanNum ← readU16 data 130
  let skillInLanguage ← readU16 data 134
  let message ← slice data msgOff (min (data.length - msgOff) 2047)
  pure
    { target := CString.text target
      sender := CString.text sender
      language
      chanNum
      skillInLanguage
      message := CString.text message }

/-! ## The slots -/

/-- The message that a client gets of what was said: the channel, who said it to whom, the text, and
    the colour it is shown in. -/
structure ChatMessage where
  channel : UInt32
  sender : QString
  target : QString
  text : QString
  chat_color : UInt32
  deriving DecidableEq, Repr

/-- What a client says there comes back from the server. -/
def echoed : List UInt32 :=
  [MT_Tell, MT_Group, MT_Guild, MT_OOC, MT_Shout, MT_Auction, MT_System, MT_Raid]

/-- What players say to each other. -/
def relayed : List UInt32 :=
  [MT_Guild, MT_Group, MT_Shout, MT_Auction, MT_OOC, MT_Tell, MT_Say, MT_Raid]

namespace ChannelMessage

variable (cmsg : ChannelMessage)

/-- The client's own message on a channel that the server sends back as well. -/
def Ignored (dir : Dir) : Prop := dir = .DIR_Client ∧ cmsg.chanNum.toUInt32 ∈ echoed

instance (dir : Dir) : Decidable (cmsg.Ignored dir) :=
  inferInstanceAs (Decidable (dir = .DIR_Client ∧ cmsg.chanNum.toUInt32 ∈ echoed))

/-- What goes to the clients of the daemon: the message on a channel that is passed on, without the
    links. -/
def toChat : List ChatMessage :=
  if cmsg.chanNum.toUInt32 ∈ relayed then
    [{ channel := cmsg.chanNum.toUInt32
       sender := fromLatin1 cmsg.sender
       target := fromLatin1 cmsg.target
       text := stripEqItemLinks id (fromLatin1 cmsg.message)
       chat_color := 0 }]
  else []

/-- The text in the log, with the language unless it is common. -/
def logText (fromUtf8 : List UInt8 → QString) : QString :=
  "'".toList ++ fromUtf8 cmsg.sender ++ "'".toList ++
  (if cmsg.target ≠ [] ∧ MT_Tell ≤ cmsg.chanNum.toUInt32 then
    " -> '".toList ++ fromUtf8 cmsg.target ++ "'".toList
  else []) ++
  " - ".toList ++ fromUtf8 cmsg.message ++
  (if cmsg.language ≠ 0 then
    " \x7b".toList ++ language_name cmsg.language.toUInt8 ++ "\x7d".toList
  else [])

end ChannelMessage

/-- The log, and what the clients were sent. -/
structure MessageShell (δ : Type) where
  log : MessageLog δ
  chat : List ChatMessage

namespace MessageShell

section
variable {δ : Type} (hasMatch : HasMatch) (fromUtf8 : List UInt8 → QString)
  (shell : MessageShell δ) (data : List UInt8) (dir : Dir)

/-- A line goes to the log, and with `chat` to the clients. -/
def say (type : UInt32) (text : QString) (chat : List ChatMessage) : MessageShell δ where
  log := shell.log.addMessage hasMatch type.toUInt64 text ME_InvalidColor
  chat := shell.chat ++ chat

/-- `channelMessage` behind the copy of the struct. -/
def hear (cmsg : ChannelMessage) : MessageShell δ :=
  if cmsg.Ignored dir then shell
  else shell.say hasMatch cmsg.chanNum.toUInt32 (cmsg.logText fromUtf8) cmsg.toChat

/-- `MessageShell::channelMessage`: a packet too short for the fixed part is left alone. -/
def channelMessage : Noted Element (MessageShell δ) :=
  if data.length < msgOff then pure shell
  else do
    let cmsg ← readChannelMessage data
    pure (shell.hear hasMatch fromUtf8 dir cmsg)

/-- What the other two slots do with the text they found: the log gets it behind `front`. -/
def announce (front text : QString) (messageColor : UInt32) : MessageShell δ :=
  let mt := chatColor2MessageType messageColor
  shell.say hasMatch mt (front ++ text)
    [{ channel := mt, sender := [], target := [], text := text, chat_color := messageColor }]

/-- With the bound of `formatMessage`, and its two ways to fail. -/
def formattedMessage (eqStr : EQStr) (fuel : ℕ) :
    Noted Element (Option (Except ℤ (MessageShell δ))) :=
  if dir = .DIR_Client ∨ data.length < 6 then pure (some (.ok shell))
  else do
    let messageFormat ← readU16 data 2
    let messageColor ← readU16 data 4
    let messages ← slice data 6 (data.length - 6)
    pure ((eqStr.formatMessage fromUtf8 fuel messageFormat.toUInt32 messages).map fun outcome =>
      outcome.map fun text =>
        shell.announce hasMatch [] (stripEqItemLinks id (Utf16.decode text))
          messageColor.toUInt32)

/-- `MessageShell::specialMessage`: only what the server sends, with the color as its first four
    bytes. -/
def specialMessage : Noted Element (MessageShell δ) :=
  if dir = .DIR_Client ∨ data.length < 4 then pure shell
  else do
    let messageColor ← readU32 data 0
    let message ← CString.within data.length 4 (data.drop 4)
    pure (shell.announce hasMatch "Special: ".toList (stripEqItemLinks id (fromLatin1 message))
      messageColor)

end

/-! ## Every read -/

section
variable (data : List UInt8)

theorem allowed_readU16 (off : ℕ) (h : off + 2 ≤ data.length) :
    (readU16 data off).Allowed Element.Inside := by
  simp only [readU16, Noted.allowed_bind, allowed_element, Noted.allowed_pure, and_true]
  omega

theorem allowed_readU32 (off : ℕ) (h : off + 4 ≤ data.length) :
    (readU32 data off).Allowed Element.Inside := by
  simp only [readU32, Noted.allowed_bind, Noted.allowed_pure, and_true]
  constructor
  · apply allowed_readU16
    omega
  · apply allowed_readU16
    omega

theorem allowed_readChannelMessage (h : msgOff ≤ data.length) :
    (readChannelMessage data).Allowed Element.Inside := by
  rw [msgOff] at h
  simp only [readChannelMessage, Noted.allowed_bind, Noted.allowed_pure, and_true]
  refine ⟨allowed_slice (by omega), allowed_slice (by omega), allowed_readU16 _ _ (by omega),
    allowed_readU16 _ _ (by omega), allowed_readU16 _ _ (by omega), allowed_slice ?_⟩
  rw [msgOff]
  omega

variable {δ : Type} (hasMatch : HasMatch) (fromUtf8 : List UInt8 → QString) (eqStr : EQStr)
  (fuel : ℕ) (shell : MessageShell δ) (dir : Dir)

/-- No slot reads behind the end of its payload. -/
theorem handlers_inside :
    (shell.channelMessage hasMatch fromUtf8 data dir).Allowed Element.Inside ∧
    (shell.formattedMessage hasMatch fromUtf8 data dir eqStr fuel).Allowed Element.Inside ∧
    (shell.specialMessage hasMatch data dir).Allowed Element.Inside := by
  refine ⟨?channel, ?formatted, ?special⟩
  case channel =>
    by_cases h : data.length < msgOff
    · simp [channelMessage, h]
    · simp [channelMessage, h, allowed_readChannelMessage data (Nat.not_lt.mp h)]
  case formatted =>
    by_cases h : dir = .DIR_Client ∨ data.length < 6
    · simp [formattedMessage, h]
    · have hlen : 6 ≤ data.length := Nat.not_lt.mp fun hlt => h (.inr hlt)
      simp only [formattedMessage, if_neg h, Noted.allowed_bind, Noted.allowed_pure, and_true]
      exact ⟨allowed_readU16 _ _ (by omega), allowed_readU16 _ _ (by omega),
        allowed_slice (by omega)⟩
  case special =>
    by_cases h : dir = .DIR_Client ∨ data.length < 4
    · simp [specialMessage, h]
    · have hlen : 4 ≤ data.length := Nat.not_lt.mp fun hlt => h (.inr hlt)
      simp only [specialMessage, if_neg h, Noted.allowed_bind, Noted.allowed_pure, and_true]
      refine ⟨allowed_readU32 _ _ (by omega), CString.allowed_within ?_⟩
      rw [List.length_drop]
      omega

end

end MessageShell

/-! ## A line on the wire -/

/-- The two bytes of a number, the low one first. -/
def le16 (v : UInt16) : List UInt8 := [v.toUInt8, (v >>> 8).toUInt8]

theorem val_readU16 {data pre post : List UInt8} {v : UInt16}
    (hdata : data = pre ++ (le16 v ++ post)) : (readU16 data pre.length).val = v := by
  have hlo : data.getD pre.length default = v.toUInt8 := by
    simp [hdata, le16]
  have hhi : data.getD (pre.length + 1) default = (v >>> 8).toUInt8 := by
    simp [hdata, le16]
  simp only [readU16, Noted.val_bind, Noted.val_pure, val_element, hlo, hhi]
  exact ByteReader.be16_toBE16 v

/-- A text in an array of 64. -/
def padded (s : List UInt8) : List UInt8 := s ++ List.replicate (64 - s.length) 0

/-- It leaves room for the NUL. -/
def Fits (s : List UInt8) : Prop := s.length < 64 ∧ 0 ∉ s

theorem length_padded {s : List UInt8} (hs : Fits s) : (padded s).length = 64 := by
  have hlen := hs.1
  simp only [padded, List.length_append, List.length_replicate]
  omega

theorem text_padded {s : List UInt8} (hs : Fits s) (rest : List UInt8) :
    CString.text ((padded s ++ rest).take 63) = s := by
  have hlen := hs.1
  have htake : (padded s ++ rest).take 63 = s ++ List.replicate (63 - s.length) 0 := by
    rw [List.take_append_of_le_length (by rw [length_padded hs]; omega), padded, List.take_append,
      List.take_of_length_le (by omega), List.take_replicate]
    congr 2
    omega
  rw [htake, CString.text_append_replicate hs.2]

theorem text_take_message {s : List UInt8} (h : 0 ∉ s) :
    CString.text ((s ++ [0]).take (min (s.length + 1) 2047)) = s.take 2047 := by
  by_cases hlen : s.length < 2047
  · rw [Nat.min_eq_left (by omega), List.take_of_length_le (by simp),
      List.take_of_length_le (by omega)]
    exact CString.text_append_replicate h 1
  · rw [Nat.min_eq_right (by omega), List.take_append_of_le_length (by omega)]
    have h' : 0 ∉ s.take 2047 := fun hmem => h (List.mem_of_mem_take hmem)
    simpa using CString.text_append_replicate h' 0

namespace ChannelMessage

variable (line : ChannelMessage)

/-- The server's packet. -/
def payload : List UInt8 :=
  padded line.target ++ (padded line.sender ++ (le16 line.language ++ (le16 line.chanNum ++
    (le16 0 ++ (le16 line.skillInLanguage ++ (line.message ++ [0]))))))

/-- The packet can hold the line. -/
structure Sendable : Prop where
  target : Fits line.target
  sender : Fits line.sender
  message : 0 ∉ line.message

/-- As much of it as the struct can hold. -/
def cut : ChannelMessage := { line with message := line.message.take 2047 }

variable {line}

theorem length_payload (h : line.Sendable) : line.payload.length = 137 + line.message.length := by
  simp only [payload, List.length_append, length_padded h.target, length_padded h.sender, le16,
    List.length_cons, List.length_nil]
  omega

/-- The packet is read as the line. -/
theorem val_readChannelMessage (h : line.Sendable) :
    (readChannelMessage line.payload).val = line.cut := by
  have htarget := length_padded h.target
  -- what stands in front of each field
  let texts := padded line.target ++ padded line.sender
  let words := texts ++ le16 line.language ++ le16 line.chanNum ++ le16 0
  let header := words ++ le16 line.skillInLanguage
  have htexts : texts.length = 128 := by
    simp only [texts, List.length_append, htarget, length_padded h.sender]
  have hchan : (texts ++ le16 line.language).length = 130 := by
    simp only [List.length_append, htexts, le16, List.length_cons, List.length_nil]
  have hwords : words.length = 134 := by
    simp only [words, List.length_append, htexts, le16, List.length_cons, List.length_nil]
  have hheader : header.length = msgOff := by
    simp only [header, List.length_append, hwords, le16, List.length_cons, List.length_nil, msgOff]
  have hdrop : line.payload.drop msgOff = line.message ++ [0] := by
    have hpay : line.payload = header ++ (line.message ++ [0]) := by
      simp only [payload, header, words, texts, List.append_assoc]
    rw [hpay, List.drop_left' hheader]
  have htargetText : CString.text ((line.payload.drop 0).take 63) = line.target := by
    rw [List.drop_zero]
    exact text_padded h.target _
  have hsenderText : CString.text ((line.payload.drop 64).take 63) = line.sender := by
    rw [payload, List.drop_left' htarget]
    exact text_padded h.sender _
  have hlanguage : (readU16 line.payload 128).val = line.language := by
    rw [← htexts]
    apply val_readU16
    simp only [payload, texts, List.append_assoc]
    rfl
  have hchanNum : (readU16 line.payload 130).val = line.chanNum := by
    rw [← hchan]
    apply val_readU16
    simp only [payload, texts, List.append_assoc]
    rfl
  have hskill : (readU16 line.payload 134).val = line.skillInLanguage := by
    rw [← hwords]
    apply val_readU16
    simp only [payload, words, texts, List.append_assoc]
    rfl
  have hmessage : CString.text ((line.payload.drop msgOff).take
      (min (line.payload.length - msgOff) 2047)) = line.message.take 2047 := by
    have hlen : line.payload.length - msgOff = line.message.length + 1 := by
      rw [length_payload h, msgOff]
      omega
    rw [hdrop, hlen]
    exact text_take_message h.message
  simp only [readChannelMessage, Noted.val_bind, Noted.val_pure, val_slice, htargetText,
    hsenderText, hlanguage, hchanNum, hskill, hmessage, cut]

end ChannelMessage

namespace MessageShell

variable {δ : Type} (hasMatch : HasMatch) (fromUtf8 : List UInt8 → QString) (dir : Dir)

/-- The packet is heard as the line. -/
theorem channelMessage_payload (shell : MessageShell δ) {line : ChannelMessage}
    (h : line.Sendable) :
    (shell.channelMessage hasMatch fromUtf8 line.payload dir).val =
      shell.hear hasMatch fromUtf8 dir line.cut := by
  have hlen : ¬ line.payload.length < msgOff := by
    rw [ChannelMessage.length_payload h, msgOff]
    omega
  simp only [channelMessage, if_neg hlen, Noted.val_bind, Noted.val_pure,
    ChannelMessage.val_readChannelMessage h]

/-- The packets, one after the other. -/
def channelMessages (shell : MessageShell δ) (packets : List (List UInt8)) : MessageShell δ :=
  packets.foldl (fun shell data => (shell.channelMessage hasMatch fromUtf8 data dir).val) shell

/-- Of the lines said, those that are not left out, each as much of it as there is room for. -/
def heard (said : List ChannelMessage) : List ChannelMessage :=
  (said.map ChannelMessage.cut).filter fun line => ¬ line.Ignored dir

/-- What was said is in the log and at the clients, all of it and nothing else, in its order. -/
theorem channelMessages_payload (shell : MessageShell δ) {said : List ChannelMessage}
    (h : ∀ line ∈ said, line.Sendable) :
    let after := shell.channelMessages hasMatch fromUtf8 dir (said.map ChannelMessage.payload)
    after.chat = shell.chat ++ (heard dir said).flatMap ChannelMessage.toChat ∧
    after.log.m_messages.map (fun entry => (entry.m_type, entry.m_text)) =
      shell.log.m_messages.map (fun entry => (entry.m_type, entry.m_text)) ++
        (heard dir said).map fun line => (line.chanNum.toUInt32.toUInt64, line.logText fromUtf8) := by
  induction said generalizing shell with
  | nil => simp [channelMessages, heard]
  | cons line said ih =>
      have hline := h line List.mem_cons_self
      have hrest := ih (shell.hear hasMatch fromUtf8 dir line.cut) fun other hother =>
        h other (List.mem_cons_of_mem line hother)
      have hstep : shell.channelMessages hasMatch fromUtf8 dir
          ((line :: said).map ChannelMessage.payload) =
          (shell.hear hasMatch fromUtf8 dir line.cut).channelMessages hasMatch fromUtf8 dir
            (said.map ChannelMessage.payload) := by
        rw [List.map_cons, channelMessages, List.foldl_cons,
          channelMessage_payload hasMatch fromUtf8 dir shell hline, channelMessages]
      simp only [hstep]
      by_cases hignored : line.cut.Ignored dir
      · simpa [heard, hear, hignored] using hrest
      · simpa [heard, hear, hignored, say, MessageLog.addMessage] using hrest

/-- A tell. -/
theorem channelMessages_payload_tell :
    let tell : ChannelMessage :=
      { target := [83, 111], sender := [71, 121], language := 1, chanNum := 7
        skillInLanguage := 100, message := [72, 105] }
    let shell : MessageShell Empty := ⟨.construct Preferences.Qt.latin {}, []⟩
    let after := shell.channelMessages (fun _ _ => false) fromLatin1 .DIR_Server [tell.payload]
    after.chat = [⟨7, "Gy".toList, "So".toList, "Hi".toList, 0⟩] ∧
      after.log.m_messages.map (fun entry => (entry.m_type, entry.m_text)) =
        [(7, "'Gy' -> 'So' - Hi \x7bBarbarian\x7d".toList)] := by
  intro tell shell after
  have h : ∀ line ∈ [tell], line.Sendable := by
    intro line hline
    obtain rfl := List.mem_singleton.mp hline
    exact ⟨⟨by decide, by decide⟩, ⟨by decide, by decide⟩, by decide⟩
  have hafter := channelMessages_payload (fun _ _ => false) fromLatin1 .DIR_Server shell h
  exact ⟨hafter.1.trans (by decide), hafter.2.trans (by decide)⟩

end MessageShell

end ShoweqDaemon.Messages

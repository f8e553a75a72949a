import Mathlib.Data.List.Range
import Mathlib.Data.NNRat.Defs
import ArenaServ.FirstMatch
import ArenaServ.RunSteps
import ArenaServ.TextWidth

/-!
# Boards

Characters post to the boards that they have open, within limits on their own posts, and may take
posts away. Reports and requests go to the board of the administrators without such limits. A board
that is full loses its last post. Times are seconds.
-/

namespace ArenaServ

/-- `Board_Post`; the number counts the posts of the board. -/
structure BoardPost where
  id : Int16
  author : List UInt8
  authorAdmin : UInt8
  subject : List UInt8
  body : List UInt8
  time : ℚ
  number : ℕ
  deriving DecidableEq

/-- How a post has come off its board. -/
inductive PostEnd where
  | removed (name : List UInt8) (access admin : UInt8)
  | pushedOut
  deriving DecidableEq

/-- The last two fields are history. -/
structure Board where
  id : ℕ
  lastId : Int16
  posts : List BoardPost
  made : ℕ
  gone : List (BoardPost × PostEnd)
  deriving DecidableEq

structure BoardConfig where
  maxSubjectLength : Int32
  maxPostLength : Int32
  maxUserPosts : Int32
  recentPostTime : Int32
  maxUserRecentPosts : Int32
  adminBoard : Int32
  adminBoardLimit : Int32
  maxPosts : Int32
  /-- The access for `boardmod` and for `reports`. -/
  boardmod : Int32
  reports : Int32
  oldReports : Bool
  reportChatLogSize : Int32
  chatMaxWidth : Int32

/-- A cast to `size_t`. -/
def sizeOf32 (n : Int32) : ℕ := (n.toInt % 2 ^ 64).toNat

/-- Who posts or takes posts away. -/
structure BoardUser where
  sourceName : List UInt8
  sourceAccess : UInt8
  admin : UInt8
  deriving DecidableEq

namespace Board

def new (id : ℕ) : Board := ⟨id, 0, [], 0, []⟩

/-- A post at the front, and the one at the end where that is too much. -/
def post (b : Board) (user : BoardUser) (subject body : List UInt8) (now : ℚ) (limit : ℕ) :
    Board :=
  let posts :=
    ⟨b.lastId + 1, user.sourceName, user.admin, subject, body, now, b.made + 1⟩ :: b.posts
  { b with
    lastId := b.lastId + 1
    made := b.made + 1
    posts := if limit < posts.length then posts.dropLast else posts
    gone :=
      if limit < posts.length then
        b.gone ++ posts.getLast?.toList.map fun post => (post, .pushedOut)
      else b.gone }

def isRecent (config : BoardConfig) (now : ℚ) (post : BoardPost) : Bool :=
  now < post.time + config.recentPostTime.toInt

/-- The loop over the posts in `Board_Create`, with both counts. -/
def mayPost (config : BoardConfig) (author : List UInt8) (now : ℚ) :
    List BoardPost → ℕ → ℕ → Bool
  | [], _, _ => true
  | post :: rest, postCount, recentPostCount =>
      if post.author = author then
        if config.maxUserPosts.toInt ≤ postCount + 1 then false
        else if isRecent config now post then
          if config.maxUserRecentPosts.toInt ≤ recentPostCount + 1 then false
          else mayPost config author now rest (postCount + 1) (recentPostCount + 1)
        else mayPost config author now rest (postCount + 1) recentPostCount
      else mayPost config author now rest postCount recentPostCount

/-- How many posts a board may have after `Board_Create`. -/
def createLimit (b : Board) (config : BoardConfig) : ℕ :=
  if (b.id : ℤ) = config.adminBoard.toInt then sizeOf32 config.adminBoardLimit
  else sizeOf32 config.maxPosts

/-- `Board_Create`, on the board that the character has open. -/
def create (b : Board) (config : BoardConfig) (user : BoardUser) (subject body : List UInt8)
    (now : ℚ) : Board :=
  let subject := subject.map fun c => if c = 0xFF then 'y'.toUInt8 else c
  if mayPost config user.sourceName now b.posts 0 0 then
    b.post user (subject.take (sizeOf32 config.maxSubjectLength))
      (body.take (sizeOf32 config.maxPostLength)) now (b.createLimit config)
  else b

/-- `Board_Remove`. -/
def remove (b : Board) (config : BoardConfig) (user : BoardUser) (postid : Int16) : Board :=
  if (user.sourceAccess.toNat : ℤ) < config.boardmod.toInt then b
  else
    match b.posts.find? (·.id = postid) with
    | some post =>
        if post.authorAdmin < user.admin ∨ post.author = user.sourceName then
          { b with
            posts := FirstMatch.alterFirst (·.id = postid) (fun _ => none) b.posts
            gone := b.gone ++ [(post, .removed user.sourceName user.sourceAccess user.admin)] }
        else b
    | none => b

end Board

/-! ## The world -/

def ucfirst : List UInt8 → List UInt8
  | [] => []
  | c :: rest => (if 97 ≤ c ∧ c ≤ 122 then c - 32 else c) :: rest

/-- The board that a character has open, and the access he had when he opened it. -/
structure OpenBoard where
  index : ℕ
  access : UInt8
  deriving DecidableEq

structure BoardWorld (κ : Type) where
  boards : List Board
  open_ : κ → Option OpenBoard
  now : ℚ

inductive BoardEvent (κ : Type) where
  /-- `near` is whether a tile of the board is in range. -/
  | open_ (who : κ) (boardid : Int16) (access : UInt8) (near : Bool)
  | openCommand (who : κ) (argument : Option Int32) (access : UInt8)
  /-- A step or a warp. -/
  | leave (who : κ)
  | create (who : κ) (user : BoardUser) (subject body : List UInt8)
  | remove (who : κ) (user : BoardUser) (postid : Int16)
  | adminReport (user : BoardUser) (reportee message : List UInt8) (chatLog : List (List UInt8))
  | adminRequest (user : BoardUser) (message : List UInt8)
  | wait (elapsed : ℚ≥0)

namespace BoardWorld

variable {κ : Type} [DecidableEq κ] (config : BoardConfig)

def start : BoardWorld κ := ⟨(List.range 8).map Board.new, fun _ => none, 0⟩

/-- A short as an index. -/
def boardIndex (boardid : Int16) (boards : List Board) : Option ℕ :=
  if 0 ≤ boardid.toInt ∧ boardid.toInt < boards.length then some boardid.toInt.toNat else none

def mayOpen (boardid : Int16) (access : UInt8) : Bool :=
  boardid.toInt ≠ config.adminBoard.toInt - 1 ∨ config.reports.toInt ≤ (access.toNat : ℤ)

/-- `Board_Open`, and the command. -/
def openBoard (w : BoardWorld κ) (who : κ) (boardid : Int16) (access : UInt8) (near : Bool) :
    BoardWorld κ :=
  match boardIndex boardid w.boards with
  | some index =>
      if mayOpen config boardid access && near then
        { w with open_ := Function.update w.open_ who (some ⟨index, access⟩) }
      else w
  | none => w

def modifyBoard (w : BoardWorld κ) (index : ℕ) (f : Board → Board) : BoardWorld κ :=
  { w with boards := w.boards.modify index f }

/-- A change of the board that a character has open. -/
def withOpen (w : BoardWorld κ) (who : κ) (f : Board → Board) : BoardWorld κ :=
  match w.open_ who with
  | some board => w.modifyBoard board.index f
  | none => w

/-- The board of the administrators. -/
def adminIndex (boards : List Board) : Option ℕ :=
  boardIndex (Int16.ofInt (config.adminBoard.toInt - 1)) boards

def postToAdmins (w : BoardWorld κ) (user : BoardUser) (subject body : List UInt8) :
    BoardWorld κ :=
  match adminIndex config w.boards with
  | some index =>
      w.modifyBoard index fun b => b.post user subject body w.now (sizeOf32 config.adminBoardLimit)
  | none => w

def ascii (s : String) : List UInt8 := s.toList.map fun c => UInt8.ofNat c.toNat

/-- `AdminReport`. -/
def adminReport (w : BoardWorld κ) (user : BoardUser) (reportee message : List UInt8)
    (chatLog : List (List UInt8)) : BoardWorld κ :=
  let message := Util.textCap message (config.chatMaxWidth.toInt - Util.textWidth
    (ucfirst user.sourceName ++ ascii "  reports: " ++ reportee ++ ascii ", ")) (ascii "...")
  w.postToAdmins config user
    (ascii " [Report] " ++ ucfirst user.sourceName ++ ascii " reports: " ++ reportee)
    (if 0 < config.reportChatLogSize.toInt then
      message ++ ascii "\r\n\r\n" ++ chatLog.flatMap (· ++ ascii "\r\n")
    else message)

/-- `AdminRequest`. -/
def adminRequest (w : BoardWorld κ) (user : BoardUser) (message : List UInt8) : BoardWorld κ :=
  let message := Util.textCap message (config.chatMaxWidth.toInt - Util.textWidth
    (ucfirst user.sourceName ++ ascii "  needs help: ")) (ascii "...")
  w.postToAdmins config user
    (ascii " [Request] " ++ ucfirst user.sourceName ++ ascii " needs help") message

def step (w : BoardWorld κ) : BoardEvent κ → BoardWorld κ
  | .open_ who boardid access near => w.openBoard config who boardid access near
  | .openCommand who argument access =>
      w.openBoard config who (Int16.ofInt ((argument.getD config.adminBoard).toInt - 1)) access true
  | .leave who => { w with open_ := Function.update w.open_ who none }
  | .create who user subject body =>
      w.withOpen who fun b => b.create config user subject body w.now
  | .remove who user postid => w.withOpen who fun b => b.remove config user postid
  | .adminReport user reportee message chatLog =>
      if config.oldReports then w else w.adminReport config user reportee message chatLog
  | .adminRequest user message => if config.oldReports then w else w.adminRequest config user message
  | .wait elapsed => { w with now := w.now + elapsed }

end BoardWorld

/-! ## What holds of a board -/

namespace Board

/-- What the author of a post may have on a board at most. -/
def userLimit (limit : Int32) : ℤ := max 1 limit.toInt

def isBy (author : List UInt8) (post : BoardPost) : Bool := post.author = author

def isRecentBy (config : BoardConfig) (author : List UInt8) (now : ℚ) (post : BoardPost) : Bool :=
  isBy author post && isRecent config now post

/-- What is kept on a board at the time `now`; `admin` is whether it is that of the
administrators. -/
structure Kept (config : BoardConfig) (admin : Bool) (now : ℚ) (b : Board) : Prop where
  lastId : b.lastId = Int16.ofNat b.made
  ids : ∀ post ∈ b.posts, post.id = Int16.ofNat post.number
  newest : b.posts.Pairwise fun post older => older.number < post.number ∧ older.time ≤ post.time
  times : ∀ post ∈ b.posts, post.time ≤ now
  /-- Each post that has been made is there or gone. -/
  account : (b.posts.map BoardPost.number ++ b.gone.map fun e => e.1.number).Perm
    (List.range' 1 b.made)
  /-- Posts are taken away by their authors or by higher administrators. -/
  removed : ∀ post name access level, (post, PostEnd.removed name access level) ∈ b.gone →
    config.boardmod.toInt ≤ access.toNat ∧ (post.authorAdmin < level ∨ post.author = name)
  /-- The posts that were pushed out are older than those that are there. -/
  pushedOut : ∀ old, (old, PostEnd.pushedOut) ∈ b.gone → ∀ post ∈ b.posts, old.number < post.number
  size : b.posts.length ≤
    max (b.createLimit config) (if admin then sizeOf32 config.adminBoardLimit else 0)
  authors : admin = false → ∀ author,
    b.posts.countP (isBy author) ≤ userLimit config.maxUserPosts ∧
      b.posts.countP (isRecentBy config author now) ≤ userLimit config.maxUserRecentPosts

variable {config : BoardConfig} {admin : Bool} {now : ℚ} {b : Board}

theorem kept_new (config : BoardConfig) (admin : Bool) (now : ℚ) (id : ℕ) :
    (new id).Kept config admin now where
  lastId := rfl
  ids := nofun
  newest := List.Pairwise.nil
  times := nofun
  account := List.Perm.refl []
  removed := nofun
  pushedOut := nofun
  size := Nat.zero_le _
  authors := fun _ _ => ⟨le_max_of_le_left Int.one_nonneg, le_max_of_le_left Int.one_nonneg⟩

/-- One more post by the author would not be too much. -/
def MayPost (config : BoardConfig) (author : List UInt8) (now : ℚ) (posts : List BoardPost) : Prop :=
  (posts.countP (isBy author) = 0 ∨
      (posts.countP (isBy author) : ℤ) < config.maxUserPosts.toInt) ∧
    (posts.countP (isRecentBy config author now) = 0 ∨
      (posts.countP (isRecentBy config author now) : ℤ) < config.maxUserRecentPosts.toInt)

/-- The counts go on from where they are. -/
theorem mayPost_from {author : List UInt8} {posts : List BoardPost} {m n : ℕ}
    (h : mayPost config author now posts m n = true) :
    (posts.countP (isBy author) = 0 ∨
        ((m + posts.countP (isBy author) : ℕ) : ℤ) < config.maxUserPosts.toInt) ∧
      (posts.countP (isRecentBy config author now) = 0 ∨
        ((n + posts.countP (isRecentBy config author now) : ℕ) : ℤ) <
          config.maxUserRecentPosts.toInt) := by
  induction posts generalizing m n with
  | nil => exact ⟨Or.inl rfl, Or.inl rfl⟩
  | cons post rest ih =>
      rw [mayPost] at h
      rw [List.countP_cons, List.countP_cons]
      by_cases hauthor : post.author = author
      · have hby : isBy author post = true := decide_eq_true hauthor
        have hrecentBy : isRecentBy config author now post = isRecent config now post := by
          rw [isRecentBy, hby, Bool.true_and]
        rw [if_pos hauthor] at h
        rw [hby, hrecentBy]
        split_ifs at h with hcount hrecent hrecents
        · have hih := ih h
          rw [if_pos rfl, if_pos hrecent]
          omega
        · have hih := ih h
          rw [if_pos rfl, if_neg hrecent]
          omega
      · have hby : isBy author post = false := decide_eq_false hauthor
        have hrecentBy : isRecentBy config author now post = false := by
          rw [isRecentBy, hby, Bool.false_and]
        rw [if_neg hauthor] at h
        rw [hby, hrecentBy]
        exact ih h

theorem mayPost_spec {author : List UInt8} {posts : List BoardPost}
    (h : mayPost config author now posts 0 0 = true) : MayPost config author now posts := by
  have hfrom := mayPost_from h
  rwa [Nat.zero_add, Nat.zero_add] at hfrom

/-- The post that is made. -/
def next (b : Board) (user : BoardUser) (subject body : List UInt8) (now : ℚ) : BoardPost :=
  ⟨b.lastId + 1, user.sourceName, user.admin, subject, body, now, b.made + 1⟩

/-- A post comes to the front, and the last one goes where that is too much. -/
theorem post_cases (b : Board) (user : BoardUser) (subject body : List UInt8) (now : ℚ)
    (limit : ℕ) :
    let b' := b.post user subject body now limit
    let new := b.next user subject body now
    b'.posts = new :: b.posts ∧ b'.gone = b.gone ∧ b'.posts.length ≤ limit ∨
      ∃ last, new :: b.posts = b'.posts ++ [last] ∧ b'.gone = b.gone ++ [(last, .pushedOut)] := by
  unfold post
  dsimp only
  rw [← next]
  split_ifs with hlimit
  · right
    obtain ⟨front, last, hall⟩ := List.eq_nil_or_concat'
      (b.next user subject body now :: b.posts) |>.resolve_left (List.cons_ne_nil _ _)
    refine ⟨last, ?_, ?_⟩
    · rw [hall, List.dropLast_concat]
    · rw [hall, List.getLast?_concat]
      rfl
  · exact Or.inl ⟨rfl, rfl, Nat.le_of_not_lt hlimit⟩

/-- A post that may be made does not bring a count over its limit. -/
theorem countP_cons_le {p : BoardPost → Bool} {new : BoardPost} {posts : List BoardPost}
    {limit : Int32} (h : (posts.countP p : ℤ) ≤ userLimit limit)
    (hnew : p new = true → posts.countP p = 0 ∨ (posts.countP p : ℤ) < limit.toInt) :
    ((new :: posts).countP p : ℤ) ≤ userLimit limit := by
  rw [List.countP_cons]
  unfold userLimit at h ⊢
  split_ifs with hp
  · rcases hnew hp with hzero | hlt
    · rw [hzero]
      exact le_max_left _ _
    · exact le_max_of_le_right (by omega)
  · exact h

theorem Kept.post (h : b.Kept config admin now) (user : BoardUser) (subject body : List UInt8)
    {limit : ℕ} (hlimit : limit ≤
      max (b.createLimit config) (if admin then sizeOf32 config.adminBoardLimit else 0))
    (hauthors : admin = false → MayPost config user.sourceName now b.posts) :
    (b.post user subject body now limit).Kept config admin now := by
  have hcases := b.post_cases user subject body now limit
  have hmade : (b.post user subject body now limit).made = b.made + 1 := rfl
  have hlast : (b.post user subject body now limit).lastId = b.lastId + 1 := rfl
  have hlim : (b.post user subject body now limit).createLimit config = b.createLimit config := rfl
  dsimp only at hcases
  generalize hb' : b.post user subject body now limit = b' at hcases hmade hlast hlim ⊢
  generalize hnew : b.next user subject body now = new at hcases
  have hnumber : new.number = b.made + 1 := hnew ▸ rfl
  have hold : ∀ post ∈ b.posts, post.number ≤ b.made := by
    intro post hpost
    have hmem := h.account.subset (List.mem_append_left _ (List.mem_map_of_mem hpost))
    have hrange := List.mem_range'_1.mp hmem
    omega
  have hgone : ∀ e ∈ b.gone, e.1.number ≤ b.made := by
    intro e he
    have hmem := h.account.subset
      (List.mem_append_right _ (List.mem_map_of_mem (f := fun e => e.1.number) he))
    have hrange := List.mem_range'_1.mp hmem
    omega
  have hsub : b'.posts.Sublist (new :: b.posts) := by
    rcases hcases with ⟨hposts, -, -⟩ | ⟨last, hall, -⟩
    · rw [hposts]
    · rw [hall]
      exact List.sublist_append_left _ _
  have hpairwise : (new :: b.posts).Pairwise fun post older =>
      older.number < post.number ∧ older.time ≤ post.time := by
    refine List.pairwise_cons.mpr ⟨fun post hpost => ⟨?_, ?_⟩, h.newest⟩
    · rw [hnumber]
      exact Nat.lt_succ_of_le (hold post hpost)
    · rw [← hnew]
      exact h.times post hpost
  have haccount : ((new :: b.posts).map BoardPost.number ++ b.gone.map fun e => e.1.number).Perm
      (List.range' 1 b'.made) := by
    rw [hmade, List.range'_1_concat, List.map_cons, List.cons_append, hnumber, Nat.add_comm b.made 1]
    exact (h.account.cons _).trans (List.perm_append_singleton _ _).symm
  constructor
  · rw [hlast, hmade, h.lastId]
    exact (Int16.ofNat_add b.made 1).symm
  · intro post hpost
    rcases List.mem_cons.mp (hsub.subset hpost) with rfl | hpost
    · rw [hnumber, ← hnew]
      exact (congrArg (· + 1) h.lastId).trans (Int16.ofNat_add b.made 1).symm
    · exact h.ids post hpost
  · exact hpairwise.sublist hsub
  · intro post hpost
    rcases List.mem_cons.mp (hsub.subset hpost) with rfl | hpost
    · rw [← hnew]
      exact le_refl now
    · exact h.times post hpost
  · rcases hcases with ⟨hposts, hgone', -⟩ | ⟨last, hall, hgone'⟩
    · rw [hposts, hgone']
      exact haccount
    · refine List.Perm.trans ?_ haccount
      rw [hall, hgone', List.map_append, List.map_append, List.append_assoc]
      exact List.Perm.append_left _ (List.perm_append_singleton _ _)
  · intro post name access level hmem
    refine h.removed post name access level ?_
    rcases hcases with ⟨-, hgone', -⟩ | ⟨last, -, hgone'⟩
    · rwa [hgone'] at hmem
    · rw [hgone'] at hmem
      exact (List.mem_append.mp hmem).resolve_right fun h => by cases List.mem_singleton.mp h
  · intro old hmem post hpost
    have hnewer {old : BoardPost} (hmem : (old, PostEnd.pushedOut) ∈ b.gone) :
        old.number < post.number := by
      rcases List.mem_cons.mp (hsub.subset hpost) with rfl | hpost
      · rw [hnumber]
        exact Nat.lt_succ_of_le (hgone _ hmem)
      · exact h.pushedOut old hmem post hpost
    rcases hcases with ⟨-, hgone', -⟩ | ⟨last, hall, hgone'⟩
    · exact hnewer (hgone' ▸ hmem)
    · rw [hgone'] at hmem
      rcases List.mem_append.mp hmem with hmem | hmem
      · exact hnewer hmem
      · cases List.mem_singleton.mp hmem
        rw [hall] at hpairwise
        exact ((List.pairwise_append.mp hpairwise).2.2 post hpost old
          (List.mem_singleton_self _)).1
  · rw [hlim]
    rcases hcases with ⟨-, -, hlen⟩ | ⟨last, hall, -⟩
    · exact hlen.trans hlimit
    · have hlen := congrArg List.length hall
      rw [List.length_cons, List.length_append, List.length_singleton] at hlen
      rw [← Nat.succ.inj hlen]
      exact h.size
  · intro hadmin author
    obtain ⟨hcount, hrecent⟩ := h.authors hadmin author
    have hauthor (hby : isBy author new = true) : user.sourceName = author := by
      rw [← hnew] at hby
      exact of_decide_eq_true hby
    constructor
    · refine (Int.ofNat_le.mpr hsub.countP_le).trans (countP_cons_le hcount fun hby => ?_)
      exact hauthor hby ▸ (hauthors hadmin).1
    · refine (Int.ofNat_le.mpr hsub.countP_le).trans (countP_cons_le hrecent fun hby => ?_)
      exact hauthor (Bool.and_eq_true_iff.mp hby).1 ▸ (hauthors hadmin).2

theorem Kept.create (h : b.Kept config admin now) (user : BoardUser) (subject body : List UInt8) :
    (b.create config user subject body now).Kept config admin now := by
  unfold Board.create
  dsimp only
  split_ifs with hmay
  · exact h.post user _ _ (le_max_left _ _) fun _ => mayPost_spec hmay
  · exact h

theorem Kept.remove (h : b.Kept config admin now) (user : BoardUser) (postid : Int16) :
    (b.remove config user postid).Kept config admin now := by
  unfold Board.remove
  split_ifs with haccess
  · exact h
  cases hfind : b.posts.find? (·.id = postid) with
  | none => exact h
  | some post =>
      dsimp only
      split_ifs with hauthor
      swap
      · exact h
      obtain ⟨front, rest, hposts, halter⟩ := FirstMatch.exists_of_find? hfind
      have halter := halter fun _ => none
      rw [Option.toList_none, List.nil_append] at halter
      rw [halter]
      have hsub : (front ++ rest).Sublist b.posts := by
        rw [hposts]
        exact List.Sublist.append_left (List.sublist_cons_self post rest) front
      have hpost : post ∈ b.posts := List.mem_of_find?_eq_some hfind
      constructor
      · exact h.lastId
      · exact fun post hpost => h.ids post (hsub.subset hpost)
      · exact h.newest.sublist hsub
      · exact fun post hpost => h.times post (hsub.subset hpost)
      · refine List.Perm.trans ?_ h.account
        have hperm : ((front ++ rest).map BoardPost.number ++ [post.number]).Perm
            (b.posts.map BoardPost.number) := by
          rw [hposts, List.map_append, List.map_append, List.map_cons, List.append_assoc]
          exact List.Perm.append_left _ (List.perm_append_singleton _ _)
        rw [@List.map_append _ _ _ b.gone]
        refine (List.Perm.append_left _ List.perm_append_comm).trans ?_
        rw [← List.append_assoc]
        exact hperm.append_right _
      · intro old name access level hmem
        rcases List.mem_append.mp hmem with hmem | hmem
        · exact h.removed old name access level hmem
        · cases List.mem_singleton.mp hmem
          exact ⟨Int.not_lt.mp haccess, hauthor⟩
      · intro old hmem post hpost
        rcases List.mem_append.mp hmem with hmem | hmem
        · exact h.pushedOut old hmem post (hsub.subset hpost)
        · cases List.mem_singleton.mp hmem
      · exact hsub.length_le.trans h.size
      · intro hadmin author
        obtain ⟨hcount, hrecent⟩ := h.authors hadmin author
        exact ⟨(Int.ofNat_le.mpr hsub.countP_le).trans hcount,
          (Int.ofNat_le.mpr hsub.countP_le).trans hrecent⟩

/-- As time passes, posts are recent no more. -/
theorem Kept.wait (h : b.Kept config admin now) {later : ℚ} (hle : now ≤ later) :
    b.Kept config admin later where
  lastId := h.lastId
  ids := h.ids
  newest := h.newest
  times := fun post hpost => (h.times post hpost).trans hle
  account := h.account
  removed := h.removed
  pushedOut := h.pushedOut
  size := h.size
  authors := fun hadmin author => by
    obtain ⟨hcount, hrecent⟩ := h.authors hadmin author
    refine ⟨hcount, (Int.ofNat_le.mpr (List.countP_mono_left fun post _ hby => ?_)).trans hrecent⟩
    obtain ⟨hby, hlater⟩ := Bool.and_eq_true_iff.mp hby
    exact Bool.and_eq_true_iff.mpr
      ⟨hby, decide_eq_true (lt_of_le_of_lt hle (of_decide_eq_true hlater))⟩

/-- While fewer than 65536 posts have been made, each has an id of its own. -/
theorem Kept.nodup_ids (h : b.Kept config admin now) (hmade : b.made < 2 ^ 16) :
    (b.posts.map BoardPost.id).Nodup := by
  refine List.pairwise_map.mpr (h.newest.imp_of_mem fun {post older} hpost holder hlt hids => ?_)
  have hle (post : BoardPost) (hpost : post ∈ b.posts) : post.number < 2 ^ 16 := by
    have hmem := h.account.subset (List.mem_append_left _ (List.mem_map_of_mem hpost))
    have hrange := List.mem_range'_1.mp hmem
    omega
  have hpost' := hle post hpost
  rw [h.ids post hpost, h.ids older holder] at hids
  have hints := congrArg Int16.toInt hids
  rw [Int16.toInt_ofNat', Int16.toInt_ofNat', Int.bmod_def, Int.bmod_def] at hints
  unfold Int16.size at hints
  split_ifs at hints <;> omega

end Board

namespace BoardWorld

variable {κ : Type} {config : BoardConfig} {w : BoardWorld κ}

structure Kept (config : BoardConfig) (w : BoardWorld κ) : Prop where
  length_boards : w.boards.length = 8
  boards : ∀ (i : ℕ) (b : Board), w.boards[i]? = some b →
    b.id = i ∧ b.Kept config (adminIndex config w.boards = some i) w.now
  /-- Who has the board of the administrators open had access when he opened it. -/
  readers : ∀ who r, w.open_ who = some r → r.index < 8 ∧
    ((r.index : ℤ) = config.adminBoard.toInt - 1 → config.reports.toInt ≤ r.access.toNat)

theorem kept_start : (start : BoardWorld κ).Kept config where
  length_boards := rfl
  boards := by
    intro i b hb
    rw [start, List.getElem?_map] at hb
    obtain ⟨j, hj, rfl⟩ := Option.map_eq_some_iff.mp hb
    have hi : j = i := by
      obtain ⟨hlt, hget⟩ := List.getElem?_eq_some_iff.mp hj
      rw [List.getElem_range] at hget
      exact hget.symm
    exact ⟨hi, Board.kept_new config _ _ j⟩
  readers := nofun

theorem adminIndex_congr {boards boards' : List Board} (h : boards'.length = boards.length) :
    adminIndex config boards' = adminIndex config boards := by
  rw [adminIndex, adminIndex, boardIndex, boardIndex, h]

theorem Kept.modifyBoard (h : w.Kept config) (index : ℕ) {f : Board → Board}
    (hid : ∀ b, (f b).id = b.id) (hf : ∀ b, w.boards[index]? = some b →
      b.Kept config (adminIndex config w.boards = some index) w.now →
      (f b).Kept config (adminIndex config w.boards = some index) w.now) :
    (w.modifyBoard index f).Kept config := by
  have hadmin : adminIndex config (w.modifyBoard index f).boards = adminIndex config w.boards :=
    adminIndex_congr (List.length_modify _ _ _)
  constructor
  · exact (List.length_modify _ _ _).trans h.length_boards
  · intro i b hb
    rw [hadmin]
    rw [BoardWorld.modifyBoard, List.getElem?_modify] at hb
    obtain ⟨old, hold, rfl⟩ := Option.map_eq_some_iff.mp hb
    obtain ⟨hi, hkept⟩ := h.boards i old hold
    by_cases heq : index = i
    · subst heq
      rw [if_pos rfl]
      exact ⟨(hid old).trans hi, hf old hold hkept⟩
    · rw [if_neg heq]
      exact ⟨hi, hkept⟩
  · exact h.readers

theorem Kept.withOpen (h : w.Kept config) (who : κ) {f : Board → Board}
    (hid : ∀ b, (f b).id = b.id) (hf : ∀ admin b, b.Kept config admin w.now →
      (f b).Kept config admin w.now) : (w.withOpen who f).Kept config := by
  unfold BoardWorld.withOpen
  cases w.open_ who with
  | none => exact h
  | some board => exact h.modifyBoard board.index hid fun b _ => hf _ b

theorem Kept.postToAdmins (h : w.Kept config) (user : BoardUser) (subject body : List UInt8) :
    (w.postToAdmins config user subject body).Kept config := by
  unfold BoardWorld.postToAdmins
  cases hindex : adminIndex config w.boards with
  | none => exact h
  | some index =>
      refine h.modifyBoard index (fun b => rfl) fun b _ hb => ?_
      have hadmin : decide (adminIndex config w.boards = some index) = true := decide_eq_true hindex
      rw [hadmin] at hb ⊢
      exact hb.post user subject body (le_max_right _ _) nofun

theorem boardIndex_eq_some {boardid : Int16} {boards : List Board} {index : ℕ}
    (h : boardIndex boardid boards = some index) :
    (index : ℤ) = boardid.toInt ∧ index < boards.length := by
  unfold boardIndex at h
  split_ifs at h with hbounds
  cases h
  omega

variable [DecidableEq κ]

theorem Kept.openBoard (h : w.Kept config) (who : κ) (boardid : Int16) (access : UInt8)
    (near : Bool) : (w.openBoard config who boardid access near).Kept config := by
  unfold BoardWorld.openBoard
  cases hindex : boardIndex boardid w.boards with
  | none => exact h
  | some index =>
      dsimp only
      split_ifs with hopen
      swap
      · exact h
      obtain ⟨hid, hlt⟩ := boardIndex_eq_some hindex
      refine ⟨h.length_boards, h.boards, fun other r hr => ?_⟩
      dsimp only at hr
      by_cases heq : other = who
      · subst heq
        rw [Function.update_self] at hr
        cases hr
        refine ⟨h.length_boards ▸ hlt, fun hadmin => ?_⟩
        have hmay := of_decide_eq_true (Bool.and_eq_true_iff.mp hopen).1
        exact hmay.resolve_left fun hne => hne (hid ▸ hadmin)
      · rw [Function.update_of_ne heq] at hr
        exact h.readers other r hr

theorem Kept.step (h : w.Kept config) (event : BoardEvent κ) : (w.step config event).Kept config := by
  cases event with
  | open_ who boardid access near => exact h.openBoard who boardid access near
  | openCommand who argument access => exact h.openBoard who _ access true
  | leave who =>
      refine ⟨h.length_boards, h.boards, fun other r hr => ?_⟩
      dsimp only [BoardWorld.step] at hr
      by_cases heq : other = who
      · subst heq
        rw [Function.update_self] at hr
        cases hr
      · rw [Function.update_of_ne heq] at hr
        exact h.readers other r hr
  | create who user subject body =>
      refine h.withOpen who (fun b => ?_) fun admin b hb => hb.create user subject body
      unfold Board.create
      dsimp only
      split_ifs <;> rfl
  | remove who user postid =>
      refine h.withOpen who (fun b => ?_) fun admin b hb => hb.remove user postid
      unfold Board.remove
      split_ifs
      · rfl
      cases b.posts.find? (·.id = postid) with
      | none => rfl
      | some post =>
          dsimp only
          split_ifs <;> rfl
  | adminReport user reportee message chatLog =>
      rw [BoardWorld.step]
      split_ifs
      · exact h
      · exact h.postToAdmins user _ _
  | adminRequest user message =>
      rw [BoardWorld.step]
      split_ifs
      · exact h
      · exact h.postToAdmins user _ _
  | wait elapsed =>
      refine ⟨h.length_boards, fun i b hb => ?_, h.readers⟩
      obtain ⟨hi, hkept⟩ := h.boards i b hb
      exact ⟨hi, hkept.wait (le_add_of_nonneg_right elapsed.2)⟩

/-- What is kept on the boards, over every run. -/
theorem kept_run (config : BoardConfig) (events : List (BoardEvent κ)) :
    (events.foldl (step config) start).Kept config := by
  induction events using List.reverseRecOn with
  | nil => exact kept_start
  | append_singleton events event ih =>
      rw [List.foldl_concat]
      exact ih.step event

end BoardWorld

end ArenaServ

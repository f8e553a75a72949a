import ArenaServ.ActionChains
import ArenaServ.ArenaRounds
import ArenaServ.BankConservation
import ArenaServ.Boards
import ArenaServ.CarriedWeight
import ArenaServ.CharacterLoads
import ArenaServ.CharacterMenus
import ArenaServ.CharacterRows
import ArenaServ.CharacterTexts
import ArenaServ.ChestConservation
import ArenaServ.ChestRepresentation
import ArenaServ.Commands
import ArenaServ.ConfigEnvironment
import ArenaServ.ConfigEscapes
import ArenaServ.ConnectionLog
import ArenaServ.DailyLimits
import ArenaServ.DeathDrops
import ArenaServ.DropLottery
import ArenaServ.DumpReplay
import ArenaServ.DumpRestore
import ArenaServ.EvacuationRuns
import ArenaServ.FightRecords
import ArenaServ.Footsteps
import ArenaServ.GroundConservation
import ArenaServ.GuildAuthority
import ArenaServ.GuildCoherenceRuns
import ArenaServ.GuildCreateRuns
import ArenaServ.GuildDeposits
import ArenaServ.GuildLoading
import ArenaServ.GuildMembership
import ArenaServ.IdAllocation
import ArenaServ.InventoryBounds
import ArenaServ.KillConservation
import ArenaServ.LexerEnds
import ArenaServ.LoginExclusive
import ArenaServ.LoginManager
import ArenaServ.LoginRelease
import ArenaServ.MapFiles
import ArenaServ.MapRuns
import ArenaServ.MarriageRequests
import ArenaServ.MarriageSymmetry
import ArenaServ.NpcSpawns
import ArenaServ.NpcTable
import ArenaServ.NumberTokens
import ArenaServ.PacketOrder
import ArenaServ.PacketPrefix
import ArenaServ.PacketReads
import ArenaServ.PartyMembership
import ArenaServ.QueryTexts
import ArenaServ.QuestCut
import ArenaServ.QuestEnds
import ArenaServ.QuestGuard
import ArenaServ.QuestReload
import ArenaServ.QuestResets
import ArenaServ.QuestRoundTrip
import ArenaServ.QuestRuns
import ArenaServ.ReconnectReplay
import ArenaServ.RpnReference
import ArenaServ.SaveLosses
import ArenaServ.SequenceAgreement
import ArenaServ.SerialNumbers
import ArenaServ.ServerClients
import ArenaServ.Sha256
import ArenaServ.ShopExactness
import ArenaServ.SocketQueues
import ArenaServ.SpellProtocol
import ArenaServ.SqlScripts
import ArenaServ.StatRules
import ArenaServ.StateFailures
import ArenaServ.TextWrap
import ArenaServ.ThreadPoolRest
import ArenaServ.TickProgress
import ArenaServ.TokenPushBack
import ArenaServ.TradeBacking
import ArenaServ.TradeConservation
import ArenaServ.TradeTeardown
import ArenaServ.Training
import ArenaServ.UploadExactness
import ArenaServ.UploadOrder
import ArenaServ.VitalBounds
import ArenaServ.WarpSuck
import ArenaServ.WeddingVows

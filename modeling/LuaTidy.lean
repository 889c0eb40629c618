import LuaTidy.Json.Reader
import LuaTidy.Main
import LuaTidy.Proofs.Pipeline.Labels
import LuaTidy.Proofs.Pipeline.PayloadRecovery
import LuaTidy.Proofs.Pipeline.QuietRuns
import LuaTidy.Proofs.Rewrite.JointRenaming
import LuaTidy.Proofs.Rewrite.JoinedLiterals
import LuaTidy.Proofs.Text.Foreign
import LuaTidy.Proofs.Rewrite.ForeignCharacters
import LuaTidy.Proofs.Pipeline.ForeignText
import LuaTidy.Proofs.Lua.RenamedStretches
import LuaTidy.Proofs.Lua.ShadedLexemes
import LuaTidy.Proofs.Text.Places
import LuaTidy.Proofs.Lua.TokenPlaces
import LuaTidy.Proofs.Rewrite.SettledNames
import LuaTidy.Proofs.Rewrite.LastNumbers
import LuaTidy.Proofs.Rewrite.MergedNames
import LuaTidy.Proofs.Rewrite.DeclaredNames
import LuaTidy.Proofs.Pipeline.SecondRun
import LuaTidy.Proofs.Files.PathTexts
import LuaTidy.Proofs.Effects
import LuaTidy.Proofs.Output.Placement
import LuaTidy.Proofs.Output.ReportPlace
import LuaTidy.Proofs.Json.Documents
import LuaTidy.Proofs.Command.Delivery
import LuaTidy.Proofs.Command.Channels
import LuaTidy.Proofs.Command.TwoSources
import LuaTidy.Proofs.Pipeline.Views
import LuaTidy.Proofs.Output.ReportBeside
import LuaTidy.Proofs.Config.Precedence
import LuaTidy.Proofs.Console.Headings
import LuaTidy.Proofs.Console.ClosingTags
import LuaTidy.Proofs.Output.Refusals
import LuaTidy.Proofs.Command.Rejections
import LuaTidy.Proofs.Value.Reordering
import LuaTidy.Proofs.Output.Targets
import LuaTidy.Proofs.Command.Failures
import LuaTidy.Proofs.Command.ErrorExits
import LuaTidy.Proofs.Command.Calls
import LuaTidy.Proofs.Config.FieldWise
import LuaTidy.Proofs.Config.StartedFile
import LuaTidy.Proofs.Command.FreshStart
import LuaTidy.Proofs.Lua.WholeLiterals
import LuaTidy.Proofs.Lua.WordRuns
import LuaTidy.Proofs.Rewrite.DecodedCodes
import LuaTidy.Proofs.Rewrite.DecodedEscapes
import LuaTidy.Proofs.Pipeline.UndisturbedEscapes
import LuaTidy.Proofs.Rewrite.SimultaneousEscapes
import LuaTidy.Proofs.Rewrite.JoinScan
import LuaTidy.Proofs.Rewrite.IndentLevels
import LuaTidy.Proofs.Rewrite.LiteralChains
import LuaTidy.Proofs.Config.Expansion
import LuaTidy.Proofs.Rewrite.BlankWords
import LuaTidy.Proofs.Lua.TokenSides
import LuaTidy.Proofs.Output.TargetOnly

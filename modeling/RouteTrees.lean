import RouteTrees.Command.Run
import RouteTrees.Json.Relaxed
import RouteTrees.Main
import RouteTrees.Panel.Basic
import RouteTrees.Project.Settings
import RouteTrees.Proofs.Command.Session
import RouteTrees.Proofs.Project.Aliases
import RouteTrees.Proofs.Project.Precedence
import RouteTrees.Proofs.Project.Refusals
import RouteTrees.Proofs.Project.Stages
import RouteTrees.Proofs.Tree.Crew
import RouteTrees.Proofs.Tree.Cycles
import RouteTrees.Proofs.Tree.Expansion
import RouteTrees.Proofs.Report.Reading
import RouteTrees.Proofs.Tree.Isolation
import RouteTrees.Proofs.Tree.Turns
import RouteTrees.Proofs.Tree.Views
import RouteTrees.Proofs.Tree.Visits
import RouteTrees.Proofs.Tree.Written
import RouteTrees.Report.Summary
import RouteTrees.Script.Module
import RouteTrees.Proofs.Text.Occurrences
import RouteTrees.Proofs.Panel.Data
import RouteTrees.Proofs.Panel.Markup
import RouteTrees.Proofs.Panel.Page
import RouteTrees.Proofs.Panel.Messages
import RouteTrees.Proofs.Panel.Runs
import RouteTrees.Proofs.Json.Layout
import RouteTrees.Proofs.Text.Bytes
import RouteTrees.Proofs.Json.Members
import RouteTrees.Proofs.Command.Trees
import RouteTrees.Proofs.Disk.Ways
import RouteTrees.Proofs.Disk.Relisted
import RouteTrees.Proofs.Project.Sources
import RouteTrees.Proofs.Project.Suffix
import RouteTrees.Proofs.Project.Siblings
import RouteTrees.Proofs.Project.Routes
import RouteTrees.Proofs.Project.Comments
import RouteTrees.Proofs.Project.Printed

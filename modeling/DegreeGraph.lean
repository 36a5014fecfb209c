import DegreeGraph.Failure
import DegreeGraph.Main
import DegreeGraph.Proofs.Sampling.Realization
import DegreeGraph.Store.Script
import DegreeGraph.Version
import DegreeGraph.Proofs.Sampling.Answer
import DegreeGraph.Proofs.Sampling.Support
import DegreeGraph.Proofs.Sampling.AnyTest
import DegreeGraph.Proofs.Sampling.Sparing
import DegreeGraph.Proofs.Store.Contents
import DegreeGraph.Proofs.Store.Steps
import DegreeGraph.Proofs.Store.Reached
import DegreeGraph.Proofs.Store.Placing
import DegreeGraph.Proofs.Store.Transaction
import DegreeGraph.Proofs.Edge.Ends
import DegreeGraph.Proofs.Edge.Exports
import DegreeGraph.Proofs.Store.Generated
import DegreeGraph.Proofs.Store.Materialized
import DegreeGraph.Proofs.Command.Pipeline
import DegreeGraph.Proofs.Sampling.Arrangement
import DegreeGraph.Proofs.Sampling.Uniform
import DegreeGraph.Proofs.Sampling.Tenure
import DegreeGraph.Proofs.Sampling.Counted
import DegreeGraph.Proofs.Sampling.Restarts
import DegreeGraph.Proofs.Sampling.Effort
import DegreeGraph.Proofs.Sampling.Limits
import DegreeGraph.Proofs.Edge.Realized
import DegreeGraph.Proofs.Store.History
import DegreeGraph.Proofs.Edge.Agreement
import DegreeGraph.Proofs.Table.Column
import DegreeGraph.Proofs.Table.Degrees
import DegreeGraph.Proofs.Degrees.Runs
import DegreeGraph.Proofs.Degrees.Layout
import DegreeGraph.Proofs.PowerLaw.Trials
import DegreeGraph.Proofs.Files.Tree
import DegreeGraph.Proofs.Edge.Saved
import DegreeGraph.Proofs.Edge.ReadBack
import DegreeGraph.Proofs.Command.Ending
